import DTLite.Reasoning.FileTable
import DTLite.Reasoning.Runs
import Mathlib.Data.List.Basic

/-!
# The lock files of the databases

Any number of processes lock `data.db` and their library.  Each file-system call is one step, and
the steps of the processes come in any order.
-/

namespace DTLite

open Reasoning Function

abbrev Pid := Nat

-- a process: its number is its own, its pid may be given to another one after its end
abbrev ProcId := Nat

-- a database file, known by the name of its lock file
abbrev DbPath := List Char

inductive Db where
  | data
  | library
deriving DecidableEq, Repr

-- what `_lock_single_database`, `_lock_databases` or `dt_database_destroy` does next
inductive LockPc where
  | idle
  /-- `g_open` with `O_CREAT | O_EXCL`, for the time `lock_tries` -/
  | create (db : Db) (lockTries : Nat)
  /-- write the pid to the file just created -/
  | write (db : Db) (file : Nat)
  /-- `g_open` with `O_CREAT` alone -/
  | reopen (db : Db) (lockTries : Nat)
  | read (db : Db) (lockTries : Nat) (file : Nat)
  | checkPid (db : Db) (lockTries : Nat) (file : Nat) (pid : Pid)
  /-- "the other process seems to no longer exist. unlink the .lock file and try again" -/
  | unlinkStale (db : Db) (lockTries : Nat) (file : Nat)
  /-- "unlock data.db to not leave a stale lock file around" -/
  | unlockData
  | failed
  | locked
  | destroyData
  | destroyLibrary
deriving DecidableEq, Repr

def LockPc.db : LockPc → Option Db
  | .create db _ | .write db _ | .reopen db _ | .read db _ _ | .checkPid db _ _ _
  | .unlinkStale db _ _ => some db
  | .unlockData | .destroyData => some .data
  | .destroyLibrary => some .library
  | .idle | .failed | .locked => none

-- the databases of a process; one in memory has no lock file
structure LockProc where
  pid : Pid
  data : Option DbPath
  library : Option DbPath
  pc : LockPc

def LockProc.path (proc : LockProc) : Db → Option DbPath
  | .data => proc.data
  | .library => proc.library

-- `creator` tells which process created a file by `O_EXCL`, and as which lock; nobody reads it
structure LockSystem where
  files : FileTable DbPath (Option Pid)
  creator : Nat → Option (ProcId × Db)
  procs : ProcId → Option LockProc
  nextProc : ProcId

variable (s : LockSystem)

namespace LockSystem

def setProc (p : ProcId) (proc : LockProc) : LockSystem :=
  { s with procs := update s.procs p (some proc) }

def pidIsAlive (pid : Pid) : Bool :=
  (List.range s.nextProc).any fun p => (s.procs p).any fun proc => proc.pid == pid

variable (path : DbPath)

def createFile (creator : Option (ProcId × Db)) : LockSystem :=
  { s with
    files := s.files.create path none
    creator := update s.creator s.files.next creator }

def unlink (ok : Bool) : LockSystem :=
  if ok then { s with files := s.files.unlink path } else s

theorem setProc_cases {s : LockSystem} {p r : ProcId} {proc proc' : LockProc}
    (h : (s.setProc p proc).procs r = some proc') :
    (r = p ∧ proc' = proc) ∨ (r ≠ p ∧ s.procs r = some proc') := by
  change update s.procs p (some proc) r = some proc' at h
  by_cases hr : r = p
  · subst hr
    rw [update_self] at h
    exact Or.inl ⟨rfl, (Option.some.inj h).symm⟩
  · rw [update_of_ne hr] at h
    exact Or.inr ⟨hr, h⟩

variable (creator : Option (ProcId × Db))

@[simp] theorem createFile_creator_next :
    (s.createFile path creator).creator s.files.next = creator :=
  update_self ..

theorem createFile_creator_of_ne {file : Nat}
    (hne : file ≠ s.files.next) : (s.createFile path creator).creator file = s.creator file :=
  update_of_ne hne ..

end LockSystem

variable (proc : LockProc)

-- `_lock_single_database` returns TRUE
def acquired : Db → LockPc
  | .data => if proc.library.isSome then .create .library 1 else .locked
  | .library => .locked

-- `_lock_single_database` returns FALSE
def notAcquired : Db → LockPc
  | .data => .failed
  | .library => if proc.data.isSome then .unlockData else .failed

-- `_lock_databases` begins
def lockDatabases : LockPc :=
  if proc.data.isSome then .create .data 1 else acquired proc .data

-- `dt_database_destroy` begins, and goes on after the lock of `data.db`
def destroyLibraryLock : LockPc :=
  if proc.library.isSome then .destroyLibrary else .idle

def dtDatabaseDestroy : LockPc :=
  if proc.data.isSome then .destroyData else destroyLibraryLock proc

-- the next call of a process, on its lock file; `ok` says whether the system grants it
def lockCall (p : ProcId) (proc : LockProc) (lockfile : DbPath) (ok : Bool) : LockSystem :=
  match proc.pc with
  | .create db tries =>
      if ok && (s.files.dir lockfile).isNone then
        (s.createFile lockfile (some (p, db))).setProc p
          { proc with pc := .write db s.files.next }
      else s.setProc p { proc with pc := .reopen db tries }
  | .write db file =>
      if ok then
        { s with files := s.files.write file (some proc.pid) }.setProc p
          { proc with pc := acquired proc db }
      else s.setProc p { proc with pc := notAcquired proc db }
  | .reopen db tries =>
      if ok then
        match s.files.dir lockfile with
        | some file => s.setProc p { proc with pc := .read db tries file }
        | none =>
            (s.createFile lockfile none).setProc p { proc with pc := .read db tries s.files.next }
      else s.setProc p { proc with pc := notAcquired proc db }
  | .read db tries file =>
      match if ok then s.files.content file else none with
      | some pid => s.setProc p { proc with pc := .checkPid db tries file pid }
      | none => s.setProc p { proc with pc := notAcquired proc db }
  | .checkPid db tries file pid =>
      if s.pidIsAlive pid then s.setProc p { proc with pc := notAcquired proc db }
      else s.setProc p { proc with pc := .unlinkStale db tries file }
  | .unlinkStale db tries _ =>
      (s.setProc p { proc with
        pc := if tries < 5 then .create db (tries + 1) else notAcquired proc db }).unlink
        lockfile ok
  | .unlockData => (s.setProc p { proc with pc := .failed }).unlink lockfile ok
  | .destroyData => (s.setProc p { proc with pc := destroyLibraryLock proc }).unlink lockfile ok
  | .destroyLibrary => (s.setProc p { proc with pc := .idle }).unlink lockfile ok
  | .idle | .failed | .locked => s

inductive LockEvent where
  /-- A process comes up under a pid that no live one has. -/
  | spawn (pid : Pid)
  /-- `dt_database_init` with these databases -/
  | init (p : ProcId) (data library : Option DbPath)
  /-- The next file-system call of the process, which may fail. -/
  | call (p : ProcId) (ok : Bool)
  /-- `dt_database_destroy` -/
  | destroy (p : ProcId)
  /-- The process ends or crashes, whatever it was about to do. -/
  | exit (p : ProcId)

def lockStep : LockEvent → LockSystem
  | .spawn pid =>
      if s.pidIsAlive pid then s
      else
        { s with
          procs := update s.procs s.nextProc (some ⟨pid, none, none, .idle⟩)
          nextProc := s.nextProc + 1 }
  | .init p data library =>
      match s.procs p with
      | some ⟨pid, _, _, .idle⟩ =>
          let proc : LockProc := ⟨pid, data, library, .idle⟩
          s.setProc p { proc with pc := lockDatabases proc }
      | _ => s
  | .call p ok =>
      match s.procs p with
      | none => s
      | some proc =>
          match proc.pc.db.bind proc.path with
          | some lockfile => lockCall s p proc lockfile ok
          | none => s
  | .destroy p =>
      match s.procs p with
      | some proc =>
          if proc.pc = .locked then s.setProc p { proc with pc := dtDatabaseDestroy proc } else s
      | none => s
  | .exit p => { s with procs := update s.procs p none }

def LockPc.owns : LockPc → Db → Bool
  | .locked, _ | .destroyData, _ => true
  | .unlockData, .data => true
  | .destroyLibrary, .library => true
  | .write db _, db' => db == db' || db' == .data
  | .create .library _, .data | .reopen .library _, .data | .read .library _ _, .data
  | .checkPid .library _ _ _, .data | .unlinkStale .library _ _, .data => true
  | _, _ => false

/-- `_lock_single_database` has returned TRUE, and the lock file has not been unlinked since. -/
def LockPc.holds (pc : LockPc) (db : Db) : Bool :=
  match pc with
  | .write db' _ => db' != db && pc.owns db
  | _ => pc.owns db

/-- At most one live process holds the lock of a database file. -/
def MutualExclusion : Prop :=
  ∀ p₁ p₂ proc₁ proc₂ db₁ db₂ path,
    s.procs p₁ = some proc₁ → proc₁.path db₁ = some path → proc₁.pc.holds db₁ = true →
    s.procs p₂ = some proc₂ → proc₂.path db₂ = some path → proc₂.pc.holds db₂ = true →
    p₁ = p₂

def LockSystem.creatorIsAlive (file : Nat) : Bool :=
  (s.creator file).any fun c => (s.procs c.1).isSome

/-- A process that removes a stale lock finds the file whose pid it has read, or one that no live
process has created. -/
def recoveryMeetsItsFile : LockEvent → Bool
  | .call p _ =>
      (s.procs p).all fun proc =>
        match proc.pc with
        | .unlinkStale db _ file =>
            ((proc.path db).bind s.files.dir).all fun i => i == file || !s.creatorIsAlive i
        | _ => true
  | _ => true

def PcOk (p : ProcId) : LockPc → Prop
  | .write db file => file < s.files.next ∧ s.creator file = some (p, db)
  | .read _ _ file => file < s.files.next
  | .checkPid _ _ file pid => file < s.files.next ∧
      ∀ c db proc, s.creator file = some (c, db) → s.procs c = some proc → proc.pid = pid
  | .unlinkStale _ _ file => file < s.files.next ∧
      ∀ c db, s.creator file = some (c, db) → s.procs c = none
  | _ => True

structure LockInv (s : LockSystem) : Prop where
  /-- Under the name of a lock there is the file that its owner has created. -/
  owned : ∀ p proc db path, s.procs p = some proc → proc.pc.owns db = true →
    proc.path db = some path → ∃ file, s.files.dir path = some file ∧ s.creator file = some (p, db)
  pcOk : ∀ p proc, s.procs p = some proc → PcOk s p proc.pc
  content : ∀ file pid c db proc, s.files.content file = some pid →
    s.creator file = some (c, db) → s.procs c = some proc → proc.pid = pid
  creatorKnown : ∀ file c db, s.creator file = some (c, db) → file < s.files.next ∧ c < s.nextProc
  procsKnown : ∀ p proc, s.procs p = some proc → p < s.nextProc

theorem LockPc.owns_of_holds {pc : LockPc} {db : Db} (h : pc.holds db = true) :
    pc.owns db = true := by
  unfold LockPc.holds at h
  split at h
  · exact (Bool.and_eq_true _ _ ▸ h).2
  · exact h

theorem LockInv.mutualExclusion {s : LockSystem} (hinv : LockInv s) : MutualExclusion s := by
  intro p₁ p₂ proc₁ proc₂ db₁ db₂ path hp₁ hpath₁ hholds₁ hp₂ hpath₂ hholds₂
  obtain ⟨file₁, hdir₁, hcreator₁⟩ := hinv.owned p₁ proc₁ db₁ path hp₁
    (LockPc.owns_of_holds hholds₁) hpath₁
  obtain ⟨file₂, hdir₂, hcreator₂⟩ := hinv.owned p₂ proc₂ db₂ path hp₂
    (LockPc.owns_of_holds hholds₂) hpath₂
  -- one name, one file, one creator
  have hfile : file₁ = file₂ := Option.some.inj (hdir₁.symm.trans hdir₂)
  rw [hfile, hcreator₂] at hcreator₁
  exact (congrArg Prod.fst (Option.some.inj hcreator₁)).symm

end DTLite
