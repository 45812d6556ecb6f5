import DTLite.Common.DatabaseLock

/-!
# Mutual exclusion of the lock files

Each kind of step is shown to keep the invariant, then the calls of a process are put together from
these, and runs from the calls.
-/

namespace DTLite

open Reasoning Option Function LockSystem

/-- From `s` to `s'` no process comes back to life and no file changes its creator. -/
structure Evolves (s s' : LockSystem) : Prop where
  next_le : s.files.next ≤ s'.files.next
  creator_eq : ∀ file, file < s.files.next → s'.creator file = s.creator file
  back : ∀ c proc', c < s.nextProc → s'.procs c = some proc' →
    ∃ proc, s.procs c = some proc ∧ proc.pid = proc'.pid

variable {proc : LockProc} {pc : LockPc} {p : ProcId}

theorem PcOk.evolve {s s' : LockSystem} (hinv : LockInv s) (hev : Evolves s s')
    (hpc : PcOk s p pc) : PcOk s' p pc := by
  cases pc with
  | write db file =>
    have hlt : file < s.files.next := hpc.1
    exact ⟨Nat.lt_of_lt_of_le hlt hev.next_le, (hev.creator_eq file hlt).trans hpc.2⟩
  | read db tries file => exact Nat.lt_of_lt_of_le hpc hev.next_le
  | checkPid db tries file pid =>
    have hlt : file < s.files.next := hpc.1
    refine ⟨Nat.lt_of_lt_of_le hlt hev.next_le, ?_⟩
    intro c db' proc' hcreator hproc'
    rw [hev.creator_eq file hlt] at hcreator
    obtain ⟨proc, hproc, hpid⟩ := hev.back c proc' (hinv.creatorKnown file c db' hcreator).2 hproc'
    rw [← hpid]
    exact hpc.2 c db' proc hcreator hproc
  | unlinkStale db tries file =>
    have hlt : file < s.files.next := hpc.1
    refine ⟨Nat.lt_of_lt_of_le hlt hev.next_le, ?_⟩
    intro c db' hcreator
    rw [hev.creator_eq file hlt] at hcreator
    have hdead : s.procs c = none := hpc.2 c db' hcreator
    rw [eq_none_iff_forall_ne_some]
    intro proc' hproc'
    obtain ⟨proc, hproc, -⟩ := hev.back c proc' (hinv.creatorKnown file c db' hcreator).2 hproc'
    rw [hdead] at hproc
    cases hproc
  | _ => trivial

/-! ## The kinds of step -/

variable {db : Db}

section Steps

variable {s : LockSystem} (hinv : LockInv s)
include hinv

theorem LockInv.ofProcs {procs : ProcId → Option LockProc} {nextProc : ProcId}
    (hnext : s.nextProc ≤ nextProc)
    (hback : ∀ c proc', c < s.nextProc → procs c = some proc' →
      ∃ proc, s.procs c = some proc ∧ proc.pid = proc'.pid)
    (hprocs : ∀ r procr, procs r = some procr → r < nextProc ∧ (s.procs r = some procr ∨
      (PcOk s r procr.pc ∧ ∀ db path, procr.pc.owns db = true → procr.path db = some path →
        ∃ file, s.files.dir path = some file ∧ s.creator file = some (r, db)))) :
    LockInv { s with procs := procs, nextProc := nextProc } := by
  have hev : Evolves s { s with procs := procs, nextProc := nextProc } :=
    ⟨Nat.le_refl _, fun _ _ => rfl, hback⟩
  constructor
  · intro r procr db path hr hown hpath
    rcases (hprocs r procr hr).2 with hr' | ⟨-, hown'⟩
    · exact hinv.owned r procr db path hr' hown hpath
    · exact hown' db path hown hpath
  · intro r procr hr
    rcases (hprocs r procr hr).2 with hr' | ⟨hpc, -⟩
    · exact (hinv.pcOk r procr hr').evolve hinv hev
    · exact hpc.evolve hinv hev
  · intro file pid c db procc hcontent hcreator hc
    have hlt := (hinv.creatorKnown file c db hcreator).2
    obtain ⟨proc₀, hproc₀, hpid₀⟩ := hback c procc hlt hc
    rw [← hpid₀]
    exact hinv.content file pid c db proc₀ hcontent hcreator hproc₀
  · intro file c db hcreator
    have hlt := hinv.creatorKnown file c db hcreator
    exact ⟨hlt.1, Nat.lt_of_lt_of_le hlt.2 hnext⟩
  · exact fun r procr hr => (hprocs r procr hr).1

theorem LockInv.setProc {proc' : LockProc} (hp : s.procs p = some proc)
    (hpid : proc'.pid = proc.pid) (hpc : PcOk s p proc'.pc)
    (hown : ∀ db path, proc'.pc.owns db = true → proc'.path db = some path →
      ∃ file, s.files.dir path = some file ∧ s.creator file = some (p, db)) :
    LockInv (s.setProc p proc') := by
  refine hinv.ofProcs (Nat.le_refl _) (fun c proc₁ _ hc => ?_) fun r procr hr => ?_
  · rcases setProc_cases hc with ⟨rfl, rfl⟩ | ⟨-, hc'⟩
    · exact ⟨proc, hp, hpid.symm⟩
    · exact ⟨proc₁, hc', rfl⟩
  · rcases setProc_cases hr with ⟨rfl, rfl⟩ | ⟨-, hr'⟩
    · exact ⟨hinv.procsKnown r proc hp, Or.inr ⟨hpc, hown⟩⟩
    · exact ⟨hinv.procsKnown r procr hr', Or.inl hr'⟩

theorem LockInv.createFile {path : DbPath} {creator : Option (ProcId × Db)}
    (hfree : s.files.dir path = none) (hknown : ∀ c db, creator = some (c, db) → c < s.nextProc) :
    LockInv (s.createFile path creator) := by
  have hcreator : ∀ file, file < s.files.next →
      (s.createFile path creator).creator file = s.creator file := by
    intro file hlt
    exact s.createFile_creator_of_ne path creator (Nat.ne_of_lt hlt)
  have hev : Evolves s (s.createFile path creator) :=
    ⟨Nat.le_succ _, hcreator, fun c proc' _ hc => ⟨proc', hc, rfl⟩⟩
  constructor
  · intro r procr db path' hr hown hpath
    obtain ⟨file, hdir, hcr⟩ := hinv.owned r procr db path' hr hown hpath
    -- the name was free, so it is not the one of a lock
    have hne : path' ≠ path := by
      intro heq
      rw [heq, hfree] at hdir
      cases hdir
    refine ⟨file, ?_, ?_⟩
    · exact (FileTable.create_dir_of_ne s.files none hne).trans hdir
    · rw [hcreator file (s.files.known path' file hdir)]
      exact hcr
  · intro r procr hr
    exact (hinv.pcOk r procr hr).evolve hinv hev
  · intro file pid c db proc hcontent hcr hc
    by_cases hfile : file = s.files.next
    · -- the new file is empty
      subst hfile
      have hempty : (s.createFile path creator).files.content s.files.next = none :=
        s.files.create_content_next path none
      rw [hempty] at hcontent
      cases hcontent
    · have hcontent' : s.files.content file = some pid :=
        (s.files.create_content_of_ne path none hfile).symm.trans hcontent
      have hcr' : s.creator file = some (c, db) :=
        (s.createFile_creator_of_ne path creator hfile).symm.trans hcr
      exact hinv.content file pid c db proc hcontent' hcr' hc
  · intro file c db hcr
    by_cases hfile : file = s.files.next
    · subst hfile
      have hcr' : creator = some (c, db) := (s.createFile_creator_next path creator).symm.trans hcr
      exact ⟨Nat.lt_succ_self _, hknown c db hcr'⟩
    · have hcr' : s.creator file = some (c, db) :=
        (s.createFile_creator_of_ne path creator hfile).symm.trans hcr
      have hlt := hinv.creatorKnown file c db hcr'
      exact ⟨Nat.lt_succ_of_lt hlt.1, hlt.2⟩
  · exact hinv.procsKnown

theorem LockInv.write {file : Nat} (hp : s.procs p = some proc)
    (hcreator : s.creator file = some (p, db)) :
    LockInv { s with files := s.files.write file (some proc.pid) } := by
  constructor
  · exact hinv.owned
  · intro r procr hr
    exact (hinv.pcOk r procr hr).evolve hinv ⟨Nat.le_refl _, fun _ _ => rfl, fun c proc' _ hc =>
      ⟨proc', hc, rfl⟩⟩
  · intro file' pid c db' procc hcontent hcr hc
    by_cases hfile : file' = file
    · subst hfile
      have hpid : some proc.pid = some pid :=
        (s.files.write_content_self file' (some proc.pid)).symm.trans hcontent
      have hpc : (p, db) = (c, db') := some.inj (hcreator.symm.trans hcr)
      have hcp : p = c := congrArg Prod.fst hpc
      rw [← hcp] at hc
      have hproc : proc = procc := some.inj (hp.symm.trans hc)
      rw [← hproc]
      exact some.inj hpid
    · have hcontent' : s.files.content file' = some pid :=
        (s.files.write_content_of_ne (some proc.pid) hfile).symm.trans hcontent
      exact hinv.content file' pid c db' procc hcontent' hcr hc
  · exact hinv.creatorKnown
  · exact hinv.procsKnown

theorem LockInv.unlink {path : DbPath} (ok : Bool)
    (hnot : ∀ r procr db, s.procs r = some procr → procr.pc.owns db = true →
      procr.path db ≠ some path) :
    LockInv (s.unlink path ok) := by
  cases ok with
  | false => exact hinv
  | true =>
    constructor
    · intro r procr db path' hr hown hpath
      obtain ⟨file, hdir, hcr⟩ := hinv.owned r procr db path' hr hown hpath
      have hne : path' ≠ path := by
        intro heq
        rw [heq] at hpath
        exact hnot r procr db hr hown hpath
      exact ⟨file, (FileTable.unlink_dir_of_ne s.files hne).trans hdir, hcr⟩
    · intro r procr hr
      exact (hinv.pcOk r procr hr).evolve hinv ⟨Nat.le_refl _, fun _ _ => rfl, fun c proc' _ hc =>
        ⟨proc', hc, rfl⟩⟩
    · exact hinv.content
    · exact hinv.creatorKnown
    · exact hinv.procsKnown

theorem LockInv.spawn (pid : Pid) : LockInv (lockStep s (.spawn pid)) := by
  unfold lockStep
  dsimp only
  split
  · exact hinv
  · -- the new process is a new number, and has nothing yet
    refine hinv.ofProcs (Nat.le_succ _) (fun c proc' hlt hc => ?_) fun r procr hr => ?_
    · rw [update_of_ne (Nat.ne_of_lt hlt)] at hc
      exact ⟨proc', hc, rfl⟩
    · rcases setProc_cases hr with ⟨rfl, rfl⟩ | ⟨-, hr'⟩
      · refine ⟨Nat.lt_succ_self _, Or.inr ⟨trivial, fun db path hown => ?_⟩⟩
        cases db <;> cases hown
      · exact ⟨Nat.lt_succ_of_lt (hinv.procsKnown r procr hr'), Or.inl hr'⟩

theorem LockInv.exit (p : ProcId) : LockInv (lockStep s (.exit p)) := by
  have hold : ∀ r procr, update s.procs p none r = some procr → s.procs r = some procr := by
    intro r procr hr
    by_cases hrp : r = p
    · subst hrp
      rw [update_self] at hr
      cases hr
    · rw [update_of_ne hrp] at hr
      exact hr
  refine hinv.ofProcs (Nat.le_refl _) (fun c proc' _ hc => ⟨proc', hold c proc' hc, rfl⟩) ?_
  intro r procr hr
  exact ⟨hinv.procsKnown r procr (hold r procr hr), Or.inl (hold r procr hr)⟩

end Steps

/-! ## The calls of a process -/

def LockPc.getsLock : LockPc → Option Db
  | .create db _ | .reopen db _ | .read db _ _ | .checkPid db _ _ _ | .unlinkStale db _ _ => some db
  | _ => none

-- While it gets the lock of the library, a process has that of `data.db`.
theorem owns_of_getsLock (hpc : pc.getsLock = some db) (db' : Db) :
    pc.owns db' = (db == .library && db' == .data) := by
  cases pc with
  | create _ _ | reopen _ _ | read _ _ _ | checkPid _ _ _ _ | unlinkStale _ _ _ =>
    cases hpc
    cases db <;> cases db' <;> rfl
  | _ => cases hpc

theorem owns_notAcquired {db' : Db} (hown : (notAcquired proc db).owns db' = true) :
    db = .library ∧ db' = .data := by
  cases db with
  | data => cases db' <;> cases hown
  | library =>
    cases db' with
    | data => exact ⟨rfl, rfl⟩
    | library =>
      simp only [notAcquired] at hown
      split at hown <;> cases hown

theorem owns_acquired {db' : Db} {path : DbPath} (hown : (acquired proc db).owns db' = true)
    (hpath : proc.path db' = some path) : db' = db ∨ db' = .data := by
  cases db' with
  | data => exact Or.inr rfl
  | library =>
    cases db with
    | library => exact Or.inl rfl
    | data =>
      -- a library in memory has no lock file
      have hlib : proc.library = some path := hpath
      simp only [acquired, hlib] at hown
      cases hown

theorem pcOk_notAcquired (s : LockSystem) (p : ProcId) (proc : LockProc) (db : Db) :
    PcOk s p (notAcquired proc db) := by
  cases db with
  | data => trivial
  | library =>
    simp only [notAcquired]
    split <;> trivial

theorem pcOk_acquired (s : LockSystem) (p : ProcId) (proc : LockProc) (db : Db) :
    PcOk s p (acquired proc db) := by
  cases db with
  | library => trivial
  | data =>
    simp only [acquired]
    split <;> trivial

section Calls

variable {s : LockSystem} (hinv : LockInv s) {p : ProcId} {proc : LockProc}
  (hp : s.procs p = some proc)
include hinv hp

theorem LockInv.setPc (hpc : PcOk s p pc)
    (hown : ∀ db path, pc.owns db = true → proc.path db = some path → proc.pc.owns db = true) :
    LockInv (s.setProc p { proc with pc := pc }) := by
  refine hinv.setProc hp rfl hpc ?_
  intro db path howns hpath
  exact hinv.owned p proc db path hp (hown db path howns hpath) hpath

theorem LockInv.pcOkAt (hpc : proc.pc = pc) : PcOk s p pc := hpc ▸ hinv.pcOk p proc hp

variable {db : Db} {tries file : Nat} {lockfile : DbPath} (ok : Bool)

theorem LockInv.setGetsLock {pc' : LockPc} (hpc : proc.pc = pc) (hgets : pc.getsLock = some db)
    (hgets' : pc'.getsLock = some db) (hok : PcOk s p pc') :
    LockInv (s.setProc p { proc with pc := pc' }) := by
  apply hinv.setPc hp hok
  intro db' path howns _
  rw [owns_of_getsLock hgets'] at howns
  rw [hpc, owns_of_getsLock hgets]
  exact howns

theorem LockInv.setNotAcquired (hdata : db = .library → proc.pc.owns .data = true) :
    LockInv (s.setProc p { proc with pc := notAcquired proc db }) := by
  apply hinv.setPc hp (pcOk_notAcquired s p proc db)
  intro db' path howns hpath
  obtain ⟨hlib, rfl⟩ := owns_notAcquired howns
  exact hdata hlib

theorem LockInv.setNotGot (hpc : proc.pc = pc) (hgets : pc.getsLock = some db) :
    LockInv (s.setProc p { proc with pc := notAcquired proc db }) := by
  apply hinv.setNotAcquired hp
  rintro rfl
  rw [hpc, owns_of_getsLock hgets]
  rfl

theorem LockInv.unlinkOwn (howns : proc.pc.owns db = true) (hpath : proc.path db = some lockfile)
    (hinv' : LockInv (s.setProc p { proc with pc := pc })) (hnew : pc.owns db = false) :
    LockInv ((s.setProc p { proc with pc := pc }).unlink lockfile ok) := by
  apply hinv'.unlink ok
  intro r procr db' hr hownr hpathr
  obtain ⟨file, hdir, hcreator⟩ := hinv.owned p proc db lockfile hp howns hpath
  obtain ⟨file', hdir', hcreator'⟩ := hinv'.owned r procr db' lockfile hr hownr hpathr
  have hfile : file = file' := some.inj (hdir.symm.trans hdir')
  rw [← hfile] at hcreator'
  have heq : (p, db) = (r, db') := some.inj (hcreator.symm.trans hcreator')
  rw [Prod.mk.injEq] at heq
  rcases setProc_cases hr with ⟨-, rfl⟩ | ⟨hne, -⟩
  · rw [← heq.2, hnew] at hownr
    cases hownr
  · exact hne heq.1.symm

theorem LockInv.createCall (hpc : proc.pc = .create db tries)
    (hpath : proc.path db = some lockfile) : LockInv (lockCall s p proc lockfile ok) := by
  simp only [lockCall, hpc]
  split
  case isTrue hfree =>
    rw [Bool.and_eq_true, isNone_iff_eq_none] at hfree
    have hknown : ∀ c db', some (p, db) = some (c, db') → c < s.nextProc := by
      intro c db' heq
      have hcp : p = c := congrArg Prod.fst (some.inj heq)
      rw [← hcp]
      exact hinv.procsKnown p proc hp
    have hinv' : LockInv (s.createFile lockfile (some (p, db))) := hinv.createFile hfree.2 hknown
    have hcreator := s.createFile_creator_next lockfile (some (p, db))
    refine hinv'.setProc hp rfl ⟨Nat.lt_succ_self _, hcreator⟩ ?_
    intro db' path howns hpath'
    by_cases hdb : db' = db
    · subst hdb
      have hsame : path = lockfile := some.inj (hpath'.symm.trans hpath)
      rw [hsame]
      exact ⟨s.files.next, s.files.create_dir_self lockfile none, hcreator⟩
    · -- while it makes the lock of the library, the process has that of `data.db`
      apply hinv'.owned p proc db' path hp _ hpath'
      cases db <;> cases db' <;> simp_all [LockPc.owns]
  case isFalse => exact hinv.setGetsLock hp hpc rfl rfl trivial

theorem LockInv.writeCall (hpc : proc.pc = .write db file) :
    LockInv (lockCall s p proc lockfile ok) := by
  simp only [lockCall, hpc]
  split
  · have hinv' := hinv.write hp (hinv.pcOkAt hp hpc).2
    apply hinv'.setPc hp (pcOk_acquired _ p proc db)
    intro db' path howns hpath'
    rw [hpc]
    rcases owns_acquired howns hpath' with rfl | rfl <;> simp [LockPc.owns]
  · apply hinv.setNotAcquired hp
    intro _
    rw [hpc]
    simp [LockPc.owns]

theorem LockInv.reopenCall (hpc : proc.pc = .reopen db tries) :
    LockInv (lockCall s p proc lockfile ok) := by
  simp only [lockCall, hpc]
  split
  · split
    case h_1 file hdir =>
      exact hinv.setGetsLock hp hpc rfl rfl (s.files.known lockfile file hdir)
    case h_2 hfree =>
      have hinv' : LockInv (s.createFile lockfile none) :=
        hinv.createFile hfree fun c db' heq => absurd heq (some_ne_none (c, db')).symm
      exact hinv'.setGetsLock hp hpc rfl rfl (Nat.lt_succ_self _)
  · exact hinv.setNotGot hp hpc rfl

theorem LockInv.readCall (hpc : proc.pc = .read db tries file) :
    LockInv (lockCall s p proc lockfile ok) := by
  have hlt : file < s.files.next := hinv.pcOkAt hp hpc
  simp only [lockCall, hpc]
  split
  case h_1 pid hread =>
    have hcontent : s.files.content file = some pid := by
      cases ok with
      | true => exact hread
      | false => cases hread
    -- only its creator has written to the file, and its own pid
    exact hinv.setGetsLock hp hpc rfl rfl
      ⟨hlt, fun c db' procc => hinv.content file pid c db' procc hcontent⟩
  case h_2 => exact hinv.setNotGot hp hpc rfl

theorem LockInv.checkPidCall {pid : Pid} (hpc : proc.pc = .checkPid db tries file pid) :
    LockInv (lockCall s p proc lockfile ok) := by
  have hok := hinv.pcOkAt hp hpc
  simp only [lockCall, hpc]
  split
  case isTrue => exact hinv.setNotGot hp hpc rfl
  case isFalse hdead =>
    -- the creator of the file has this pid, if it is alive
    have hgone : ∀ c db', s.creator file = some (c, db') → s.procs c = none := by
      intro c db' hcreator
      rw [eq_none_iff_forall_ne_some]
      intro procc hc
      apply hdead
      have hpid : procc.pid = pid := hok.2 c db' procc hcreator hc
      have hlt : c < s.nextProc := hinv.procsKnown c procc hc
      unfold pidIsAlive
      rw [List.any_eq_true]
      exact ⟨c, List.mem_range.mpr hlt, by simp [hc, hpid]⟩
    exact hinv.setGetsLock hp hpc rfl rfl ⟨hok.1, hgone⟩

theorem LockInv.unlinkStaleCall (hpc : proc.pc = .unlinkStale db tries file)
    (hpath : proc.path db = some lockfile) (hmeets : recoveryMeetsItsFile s (.call p ok) = true) :
    LockInv (lockCall s p proc lockfile ok) := by
  have hok := hinv.pcOkAt hp hpc
  have hinv' : LockInv (s.setProc p { proc with
      pc := if tries < 5 then .create db (tries + 1) else notAcquired proc db }) := by
    split
    · exact hinv.setGetsLock hp hpc rfl rfl trivial
    · exact hinv.setNotGot hp hpc rfl
  simp only [lockCall, hpc]
  apply hinv'.unlink ok
  intro r procr db' hr hownr hpathr
  obtain ⟨i, hdir, hcreator⟩ := hinv'.owned r procr db' lockfile hr hownr hpathr
  have hdir' : s.files.dir lockfile = some i := hdir
  have hcreator' : s.creator i = some (r, db') := hcreator
  have hgone : s.procs r = none := by
    simp only [recoveryMeetsItsFile, hp, all_some, hpc, hpath, bind_some, hdir',
      Bool.or_eq_true, beq_iff_eq, creatorIsAlive, hcreator'] at hmeets
    rcases hmeets with rfl | hdead
    · exact hok.2 r db' hcreator
    · simpa using hdead
  -- but the owner is alive
  rcases setProc_cases hr with ⟨rfl, -⟩ | ⟨-, hr'⟩
  · rw [hp] at hgone
    exact absurd hgone (some_ne_none proc)
  · rw [hr'] at hgone
    exact absurd hgone (some_ne_none procr)

theorem LockInv.unlockLast (howns : proc.pc.owns db = true) (hpath : proc.path db = some lockfile)
    (hok : PcOk s p pc) (hnew : ∀ db', pc.owns db' = false) :
    LockInv ((s.setProc p { proc with pc := pc }).unlink lockfile ok) := by
  apply hinv.unlinkOwn hp ok howns hpath _ (hnew db)
  apply hinv.setPc hp hok
  intro db' _ howns' _
  rw [hnew db'] at howns'
  cases howns'

theorem LockInv.lockCall (hpath : proc.pc.db.bind proc.path = some lockfile)
    (hmeets : recoveryMeetsItsFile s (.call p ok) = true) :
    LockInv (lockCall s p proc lockfile ok) := by
  generalize hpc : proc.pc = pc at hpath
  cases pc with
  | create db tries => exact hinv.createCall hp ok hpc hpath
  | write db file => exact hinv.writeCall hp ok hpc
  | reopen db tries => exact hinv.reopenCall hp ok hpc
  | read db tries file => exact hinv.readCall hp ok hpc
  | checkPid db tries file pid => exact hinv.checkPidCall hp ok hpc
  | unlinkStale db tries file => exact hinv.unlinkStaleCall hp ok hpc hpath hmeets
  | unlockData =>
    have howns : proc.pc.owns .data = true := by rw [hpc]; rfl
    simp only [DTLite.lockCall, hpc]
    exact hinv.unlockLast hp ok howns hpath trivial fun _ => rfl
  | destroyData =>
    have hok : PcOk s p (destroyLibraryLock proc) := by
      unfold destroyLibraryLock
      split <;> trivial
    have hinv' : LockInv (s.setProc p { proc with pc := destroyLibraryLock proc }) :=
      hinv.setPc hp hok fun db' path _ _ => by rw [hpc]; rfl
    have hnew : (destroyLibraryLock proc).owns .data = false := by
      unfold destroyLibraryLock
      split <;> rfl
    have howns : proc.pc.owns .data = true := by rw [hpc]; rfl
    simp only [DTLite.lockCall, hpc]
    exact hinv.unlinkOwn hp ok howns hpath hinv' hnew
  | destroyLibrary =>
    have howns : proc.pc.owns .library = true := by rw [hpc]; rfl
    simp only [DTLite.lockCall, hpc]
    exact hinv.unlockLast hp ok howns hpath trivial fun _ => rfl
  | idle | failed | locked => simpa [DTLite.lockCall, hpc] using hinv

end Calls

/-! ## Every run -/

-- the machine before the first process, with whatever lock files are left over
def bootSystem (files : FileTable DbPath (Option Pid)) : LockSystem where
  files := files
  creator := fun _ => none
  procs := fun _ => none
  nextProc := 0

theorem lockInv_boot (files : FileTable DbPath (Option Pid)) : LockInv (bootSystem files) := by
  constructor
  · intro p proc db path hp
    cases hp
  · intro p proc hp
    cases hp
  · intro file pid c db proc _ _ hc
    cases hc
  · intro file c db hcreator
    exact absurd hcreator (some_ne_none (c, db)).symm
  · intro p proc hp
    cases hp

theorem owns_lockDatabases {path : DbPath} (hown : (lockDatabases proc).owns db = true)
    (hpath : proc.path db = some path) : False := by
  unfold lockDatabases at hown
  cases hdata : proc.data with
  | some d =>
    rw [hdata] at hown
    cases db <;> cases hown
  | none =>
    rw [hdata, isSome_none, if_neg Bool.false_ne_true] at hown
    have hdb : db = .data := by
      rcases owns_acquired hown hpath with h | h <;> exact h
    rw [hdb] at hpath
    exact absurd (hdata.symm.trans hpath) (some_ne_none path).symm

variable {s : LockSystem}

theorem LockInv.init (hinv : LockInv s) (p : ProcId)
    (data library : Option DbPath) : LockInv (lockStep s (.init p data library)) := by
  unfold lockStep
  dsimp only
  split
  case h_1 pid _ _ hp =>
    refine hinv.setProc hp rfl ?_ ?_
    · dsimp only
      unfold lockDatabases
      split
      · trivial
      · exact pcOk_acquired ..
    · intro db path howns hpath
      exact (owns_lockDatabases howns hpath).elim
  case h_2 => exact hinv

theorem LockInv.destroy (hinv : LockInv s) (p : ProcId) : LockInv (lockStep s (.destroy p)) := by
  unfold lockStep
  dsimp only
  split
  case h_1 proc hp =>
    split
    case isTrue hpc =>
      refine hinv.setPc hp ?_ ?_
      · unfold dtDatabaseDestroy destroyLibraryLock
        split
        · trivial
        · split <;> trivial
      · intro db path _ _
        rw [hpc]
        rfl
    case isFalse => exact hinv
  case h_2 => exact hinv

theorem LockInv.lockStep (hinv : LockInv s) (e : LockEvent)
    (hmeets : recoveryMeetsItsFile s e = true) : LockInv (lockStep s e) := by
  cases e with
  | spawn pid => exact hinv.spawn pid
  | init p data library => exact hinv.init p data library
  | call p ok =>
    simp only [DTLite.lockStep]
    cases hp : s.procs p with
    | none => exact hinv
    | some proc =>
      dsimp only
      cases hpath : proc.pc.db.bind proc.path with
      | none => exact hinv
      | some lockfile => exact hinv.lockCall hp ok hpath hmeets
  | destroy p => exact hinv.destroy p
  | exit p => exact hinv.exit p

/-- Whatever lock files there are at the start, as long as each recovery of a stale lock removes
the file it has looked at, no two live processes ever hold the lock of one database. -/
theorem lock_mutualExclusion (files : FileTable DbPath (Option Pid)) (events : List LockEvent)
    (hmeets : AllSteps lockStep (fun s e => recoveryMeetsItsFile s e = true) (bootSystem files)
      events) :
    AllStates lockStep MutualExclusion (bootSystem files) events := by
  have hinv : AllStates lockStep LockInv (bootSystem files) events :=
    allStates_of_allSteps (fun _ e hs => hs.lockStep e) (lockInv_boot files) hmeets
  exact hinv.mono fun _ hs => hs.mutualExclusion

-- the lock file of a library, left over by a process with the pid 99
def staleLock : FileTable DbPath (Option Pid) where
  dir := fun path => if path = "library.db".toList then some 0 else none
  content := fun _ => some 99
  next := 1
  known := by
    intro path file h
    split at h
    · have hfile : 0 = file := Option.some.inj h
      omega
    · cases h

-- the process fails to create the lock and looks at the pid in it
def untilUnlink (p : ProcId) : List LockEvent :=
  [.spawn (p + 1), .init p none (some "library.db".toList), .call p true, .call p true,
    .call p true, .call p true]

def recover (p : ProcId) : List LockEvent := [.call p true, .call p true, .call p true]

-- one process removes the stale lock and takes its place, the next one finds it alive
def recoveredLock : List LockEvent := untilUnlink 0 ++ recover 0 ++ untilUnlink 1

theorem lock_mutualExclusion_recovery :
    AllStates lockStep MutualExclusion (bootSystem staleLock) recoveredLock ∧
      [0, 1].map (fun p => ((recoveredLock.foldl lockStep (bootSystem staleLock)).procs p).map
        LockProc.pc) = [some .locked, some .failed] :=
  ⟨lock_mutualExclusion staleLock recoveredLock (by decide), rfl⟩

/-- Two processes read the stale pid; the second one removes the new lock of the first. -/
theorem lock_two_recoveries :
    ¬ MutualExclusion ((untilUnlink 0 ++ untilUnlink 1 ++ recover 0 ++ recover 1).foldl lockStep
      (bootSystem staleLock)) := by
  intro hmutex
  have heq : (0 : ProcId) = 1 :=
    hmutex 0 1 _ _ .library .library "library.db".toList rfl rfl rfl rfl rfl rfl
  cases heq

end DTLite
