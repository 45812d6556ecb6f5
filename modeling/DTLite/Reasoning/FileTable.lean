import Mathlib.Logic.Function.Basic

/-!
A directory of files with the calls of a POSIX file system that a lock file needs.  A file lives on
for whoever has it open after its name has gone.
-/

namespace DTLite.Reasoning

open Function

section FileTable

/-- `dir` maps a name to its file, `content` a file to what is written in it, and `next` is the
number of the next new file. -/
structure FileTable (π κ : Type*) where
  dir : π → Option Nat
  content : Nat → κ
  next : Nat
  known : ∀ path file, dir path = some file → file < next

namespace FileTable

variable {π κ : Type*} [DecidableEq π] (t : FileTable π κ)

/-- A new file under a name that is free. -/
def create (path : π) (empty : κ) : FileTable π κ where
  dir := update t.dir path (some t.next)
  content := update t.content t.next empty
  next := t.next + 1
  known := by
    intro path' file h
    by_cases hpath : path' = path
    · subst hpath
      rw [update_self] at h
      have heq : t.next = file := Option.some.inj h
      omega
    · rw [update_of_ne hpath] at h
      exact Nat.lt_succ_of_lt (t.known path' file h)

def write (file : Nat) (data : κ) : FileTable π κ :=
  { t with content := update t.content file data }

def unlink (path : π) : FileTable π κ where
  dir := update t.dir path none
  content := t.content
  next := t.next
  known := by
    intro path' file h
    by_cases hpath : path' = path
    · subst hpath
      rw [update_self] at h
      exact absurd h (Option.some_ne_none file).symm
    · rw [update_of_ne hpath] at h
      exact t.known path' file h

@[simp] theorem create_dir_self (path : π) (empty : κ) :
    (t.create path empty).dir path = some t.next :=
  update_self ..

theorem create_dir_of_ne {path path' : π} (empty : κ) (hne : path' ≠ path) :
    (t.create path empty).dir path' = t.dir path' :=
  update_of_ne hne ..

@[simp] theorem create_content_next (path : π) (empty : κ) :
    (t.create path empty).content t.next = empty :=
  update_self ..

theorem create_content_of_ne {file : Nat} (path : π) (empty : κ) (hne : file ≠ t.next) :
    (t.create path empty).content file = t.content file :=
  update_of_ne hne ..

omit [DecidableEq π] in
@[simp] theorem write_content_self (file : Nat) (data : κ) :
    (t.write file data).content file = data :=
  update_self ..

omit [DecidableEq π] in
theorem write_content_of_ne {file file' : Nat} (data : κ) (hne : file' ≠ file) :
    (t.write file data).content file' = t.content file' :=
  update_of_ne hne ..

theorem unlink_dir_of_ne {path path' : π} (hne : path' ≠ path) :
    (t.unlink path).dir path' = t.dir path' :=
  update_of_ne hne ..

end FileTable

end FileTable

end DTLite.Reasoning
