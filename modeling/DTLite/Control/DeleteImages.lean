import DTLite.Control.ImageList
import DTLite.Reasoning.Glob
import DTLite.Reasoning.Runs

/-! `dt_control_delete_images_job_run`: images removed from the library and their files trashed or
deleted, with `delete_file_from_disk` asking the user when that fails. -/

namespace DTLite

open Reasoning List World

/-- `enum _dt_delete_status`. -/
inductive DeleteStatus where
  | unknown | okToRemove | skipFile | stopProcessing
  deriving DecidableEq, Repr

/-- What the loop over the images carries along; `stopped` says that it has been left by `break`. -/
structure DeleteState where
  world : World
  deleteOnTrashError : Bool
  stopped : Bool

variable (conf : Conf) (o : Outcomes) (w : World) (sendToTrash : Bool) (s : DeleteState)
  (filename : Path)

section Job

variable (conf : Conf) (o : Outcomes)

-- One turn of the loop in `delete_file_from_disk`. It ends in `unknown` to loop again, this time
-- deleting instead of trashing.
def deleteTurn (sendToTrash : Bool) (s : DeleteState) (filename : Path) :
    DeleteState × DeleteStatus :=
  let w := s.world
  let success := o.attempt w.attempts
  let tried := { w with disk := w.disk.remove filename success, attempts := w.attempts + 1 }
  let asked := { tried with asked := w.asked + 1 }
  -- the second test is `G_IO_ERROR_NOT_FOUND`
  if success || !w.exists? filename then ({ s with world := tried }, .okToRemove)
  else if sendToTrash && s.deleteOnTrashError then ({ s with world := tried }, .unknown)
  else
    match o.answer w.asked with
    | .delete => ({ s with world := asked }, if sendToTrash then .unknown else .stopProcessing)
    | .deleteAll =>
      if sendToTrash then ({ s with world := asked, deleteOnTrashError := true }, .unknown)
      else ({ s with world := asked }, .stopProcessing)
    | .remove => ({ s with world := asked }, .okToRemove)
    | .continue => ({ s with world := asked }, .skipFile)
    | .stop => ({ s with world := asked }, .stopProcessing)

-- Only a turn that trashes can end in `unknown`, so there are at most two.
def deleteFileFromDisk (s : DeleteState) (filename : Path) : DeleteState × DeleteStatus :=
  match deleteTurn o conf.sendToTrash s filename with
  | (s, .unknown) => deleteTurn o false s filename
  | r => r

def globPatterns : List (List Char) :=
  ["".toList, "_[0-9][0-9]".toList, "_[0-9][0-9][0-9]".toList, "_[0-9][0-9][0-9][0-9]".toList]

def duplicatePattern (globPattern : Path) : Path :=
  (lastSplit '.' filename).1 ++ globPattern ++ (lastSplit '.' filename).2 ++ xmpExt

-- The sidecars of a file and of its duplicates, present or past.
def dtImageFindDuplicates : List Path :=
  globPatterns.flatMap fun globPattern =>
    w.disk.files.filter fun p => globMatch (duplicatePattern filename globPattern) p

-- The loop over the sidecars, left at the first that is not deleted.
def deleteSidecars : DeleteState → List Path → DeleteState × DeleteStatus
  | s, [] => (s, .okToRemove)
  | s, file :: files =>
    match deleteFileFromDisk conf o s file with
    | (s, .okToRemove) => deleteSidecars s files
    | r => r

-- `_set_remove_flag(imgidstr)` and `dt_image_remove`.
def removeFromDb (w : World) (imgid : Nat) : World :=
  (setRemoveFlag w (Nat.toDigits 10 imgid)).dtImageRemove conf o imgid

def deleteImage (s : DeleteState) (imgid : Nat) : DeleteState × DeleteStatus :=
  let filename := (s.world.dtImageFullPath conf imgid false).1
  if s.world.lib.duplicates imgid = 1 then
    match s.world.dtImageLocalCopyReset conf o imgid with
    | (w, true) => ({ s with world := w }, .unknown)
    | (w, false) =>
      match deleteFileFromDisk conf o { s with world := removeFromDb conf o w imgid } filename with
      | (s, .okToRemove) => deleteSidecars conf o s (dtImageFindDuplicates s.world filename)
      | r => r
  else
    let xmp := dtImagePathAppendVersion s.world.lib imgid filename ++ xmpExt
    -- remove image from db first, and delete afterwards because removing will re-write the XMP
    deleteFileFromDisk conf o { s with world := removeFromDb conf o s.world imgid } xmp

def deleteStep (s : DeleteState) (imgid : Nat) : DeleteState :=
  if s.stopped then s
  else
    let (s', status) := deleteImage conf o s imgid
    { s' with stopped := status = .stopProcessing }

def deleteStart : DeleteState :=
  { world := w, deleteOnTrashError := false, stopped := false }

def dtControlDeleteImagesJobRun (w : World) (ids : List Nat) : World :=
  let list := getFullPathname w (getImageList ids)
  let s := ids.foldl (deleteStep conf o) (deleteStart w)
  (synchAll conf o s.world list).dtFilmRemoveEmpty

end Job

section Effects

variable {conf : Conf} {o : Outcomes} {s s' s'' : DeleteState} {gone gone' : Path → Prop}
  {filename : Path}

/-- From `s` to `s'` the library stays, no file comes, and those that go are among `gone`. -/
structure Attempts (gone : Path → Prop) (s s' : DeleteState) : Prop where
  lib : s'.world.lib = s.world.lib
  asked : s.world.asked ≤ s'.world.asked
  files : ∀ p ∈ s'.world.disk.files, p ∈ s.world.disk.files
  removed : ∀ p ∈ s'.world.disk.removed, p ∈ s.world.disk.removed ∨ gone p
  grows : ∀ p ∈ s.world.disk.removed, p ∈ s'.world.disk.removed

namespace Attempts

theorem refl (gone : Path → Prop) (s : DeleteState) : Attempts gone s s where
  lib := rfl
  asked := le_rfl
  files _ hp := hp
  removed _ hp := Or.inl hp
  grows _ hp := hp

theorem trans (h : Attempts gone s s') (h' : Attempts gone s' s'') : Attempts gone s s'' where
  lib := h'.lib.trans h.lib
  asked := h.asked.trans h'.asked
  files p hp := h.files p (h'.files p hp)
  removed p hp := (h'.removed p hp).elim (h.removed p) Or.inr
  grows p hp := h'.grows p (h.grows p hp)

theorem mono (hle : ∀ p, gone p → gone' p) (h : Attempts gone s s') : Attempts gone' s s' where
  __ := h
  removed p hp := (h.removed p hp).imp_right (hle p)

end Attempts

section

variable (s : DeleteState) (filename : Path)

@[simp] theorem deleteTurn_lib :
    (deleteTurn o sendToTrash s filename).1.world.lib = s.world.lib := by
  simp only [deleteTurn]
  split
  · rfl
  · split
    · rfl
    · cases o.answer s.world.asked <;> cases sendToTrash <;> rfl

@[simp] theorem deleteTurn_disk :
    (deleteTurn o sendToTrash s filename).1.world.disk =
      s.world.disk.remove filename (o.attempt s.world.attempts) := by
  simp only [deleteTurn]
  split
  · rfl
  · split
    · rfl
    · cases o.answer s.world.asked <;> cases sendToTrash <;> rfl

theorem deleteTurn_asked_le :
    s.world.asked ≤ (deleteTurn o sendToTrash s filename).1.world.asked := by
  simp only [deleteTurn]
  split
  · exact le_rfl
  · split
    · exact le_rfl
    · cases o.answer s.world.asked <;> cases sendToTrash <;> exact Nat.le_succ _

theorem attempts_deleteTurn :
    Attempts (fun p => p = filename ∧ p ∈ s.world.disk.files) s
      (deleteTurn o sendToTrash s filename).1 where
  lib := deleteTurn_lib sendToTrash s filename
  asked := deleteTurn_asked_le sendToTrash s filename
  files p hp := by
    rw [deleteTurn_disk, Disk.mem_remove] at hp
    exact hp.1
  removed p hp := by
    rw [deleteTurn_disk, Disk.mem_removed_remove] at hp
    obtain hp | ⟨-, hfile, rfl⟩ := hp
    · exact Or.inl hp
    · exact Or.inr ⟨rfl, hfile⟩
  grows p hp := by
    rw [deleteTurn_disk, Disk.mem_removed_remove]
    exact Or.inl hp

end

theorem deleteFileFromDisk_of_unknown
    (h : (deleteTurn o conf.sendToTrash s filename).2 = .unknown) :
    deleteFileFromDisk conf o s filename =
      deleteTurn o false (deleteTurn o conf.sendToTrash s filename).1 filename := by
  rw [deleteFileFromDisk, show deleteTurn o conf.sendToTrash s filename =
    ((deleteTurn o conf.sendToTrash s filename).1, .unknown) from Prod.ext rfl h]

theorem deleteFileFromDisk_of_ne_unknown
    (h : (deleteTurn o conf.sendToTrash s filename).2 ≠ .unknown) :
    deleteFileFromDisk conf o s filename = deleteTurn o conf.sendToTrash s filename := by
  rw [deleteFileFromDisk]
  split
  · rename_i heq
    exact absurd (congrArg Prod.snd heq) h
  · rfl

theorem attempts_deleteFileFromDisk (s : DeleteState) (filename : Path) :
    Attempts (fun p => p = filename ∧ p ∈ s.world.disk.files) s
      (deleteFileFromDisk conf o s filename).1 := by
  have hfirst := attempts_deleteTurn (o := o) conf.sendToTrash s filename
  by_cases h : (deleteTurn o conf.sendToTrash s filename).2 = .unknown
  · rw [deleteFileFromDisk_of_unknown h]
    exact hfirst.trans ((attempts_deleteTurn false _ filename).mono
      fun p hp => ⟨hp.1, hfirst.files p hp.2⟩)
  · rwa [deleteFileFromDisk_of_ne_unknown h]

theorem attempts_deleteSidecars (s : DeleteState) (files : List Path) :
    Attempts (· ∈ files) s (deleteSidecars conf o s files).1 := by
  induction files generalizing s with
  | nil => exact Attempts.refl _ s
  | cons file files ih =>
    have hfirst : Attempts (· ∈ file :: files) s (deleteFileFromDisk conf o s file).1 :=
      (attempts_deleteFileFromDisk s file).mono fun p hp => mem_cons.2 (Or.inl hp.1)
    rw [deleteSidecars]
    split
    · rename_i s' heq
      rw [heq] at hfirst
      exact hfirst.trans ((ih s').mono fun p => mem_cons_of_mem file)
    · exact hfirst

section Succeeds

variable {p : Path} (ho : ∀ n, o.attempt n = true)
include ho

theorem deleteFileFromDisk_of_succeeds (s : DeleteState) (filename : Path) :
    (deleteFileFromDisk conf o s filename).2 = .okToRemove ∧
      (deleteFileFromDisk conf o s filename).1.world.disk = s.world.disk.remove filename true := by
  have hok : (deleteTurn o conf.sendToTrash s filename).2 = .okToRemove := by
    simp [deleteTurn, ho]
  rw [deleteFileFromDisk_of_ne_unknown (by simp [hok]), deleteTurn_disk, ho]
  exact ⟨hok, rfl⟩

theorem mem_removed_deleteSidecars (s : DeleteState) (files : List Path)
    (hp : p ∈ s.world.disk.removed ∨ (p ∈ files ∧ p ∈ s.world.disk.files)) :
    p ∈ (deleteSidecars conf o s files).1.world.disk.removed := by
  induction files generalizing s with
  | nil => exact hp.resolve_right fun h => absurd h.1 not_mem_nil
  | cons file files ih =>
    have hdeleted : (deleteFileFromDisk conf o s file).2 = .okToRemove ∧ _ :=
      deleteFileFromDisk_of_succeeds ho s file
    obtain ⟨hok, hdisk⟩ := hdeleted
    rw [deleteSidecars, show deleteFileFromDisk conf o s file =
      ((deleteFileFromDisk conf o s file).1, .okToRemove) from Prod.ext rfl hok]
    apply ih
    rw [hdisk, Disk.mem_removed_remove, Disk.mem_remove]
    obtain hp | ⟨hmem, hfile⟩ := hp
    · exact Or.inl (Or.inl hp)
    · by_cases heq : p = file
      · exact Or.inl (Or.inr ⟨rfl, heq ▸ hfile, heq⟩)
      · exact Or.inr ⟨(mem_cons.1 hmem).resolve_left heq, hfile, fun h => heq h.2⟩

end Succeeds

end Effects

section Outcome

-- The file is not there, the attempt succeeds, or the user says to only remove it from the
-- collection.
def TurnGranted : Prop :=
  filename ∉ s.world.disk.files ∨ o.attempt s.world.attempts = true ∨
    ((sendToTrash && s.deleteOnTrashError) = false ∧ o.answer s.world.asked = .remove)

-- A file that could not be trashed is to be deleted, by an answer now or before.
def TurnRetries : Prop :=
  sendToTrash = true ∧ (s.deleteOnTrashError = true ∨ o.answer s.world.asked = .delete ∨
    o.answer s.world.asked = .deleteAll)

/-- The outcomes and answers from `s` on let the deletion of a file end well, at the first attempt
or at the second. -/
def Granted : Prop :=
  TurnGranted o conf.sendToTrash s filename ∨
    (TurnRetries o conf.sendToTrash s ∧
      (o.attempt (s.world.attempts + 1) = true ∨
        o.answer (s.world.asked + if s.deleteOnTrashError then 0 else 1) = .remove))

/-- The file is gone, or the user has chosen between `s` and `s'` to only remove it from the
collection. -/
def Settled (s' : DeleteState) (filename : Path) : Prop :=
  filename ∉ s'.world.disk.files ∨
    ∃ k, s.world.asked ≤ k ∧ k < s'.world.asked ∧ o.answer k = .remove

variable {conf : Conf} {o : Outcomes} {s s' s'' : DeleteState} {filename : Path}

theorem settled_iff_of_asked_succ (hasked : s'.world.asked = s.world.asked + 1) :
    Settled o s s' filename ↔
      filename ∉ s'.world.disk.files ∨ o.answer s.world.asked = .remove := by
  rw [Settled, hasked]
  refine or_congr Iff.rfl ⟨?_, fun h => ⟨s.world.asked, le_rfl, Nat.lt_succ_self _, h⟩⟩
  rintro ⟨k, hle, hlt, h⟩
  rwa [show s.world.asked = k by omega]

-- What a turn leaves behind that is followed by another one.
structure Retried (o : Outcomes) (s s' : DeleteState) (filename : Path) : Prop where
  file : filename ∈ s'.world.disk.files
  attempts : s'.world.attempts = s.world.attempts + 1
  asked : s'.world.asked = s.world.asked + if s.deleteOnTrashError then 0 else 1
  answer : s.deleteOnTrashError = false → o.answer s.world.asked ≠ .remove

theorem Retried.settled_iff (h : Retried o s s' filename) :
    Settled o s s'' filename ↔ Settled o s' s'' filename := by
  refine or_congr Iff.rfl ⟨?_, ?_⟩
  · rintro ⟨k, hk, hlt, hremove⟩
    refine ⟨k, ?_, hlt, hremove⟩
    by_contra hlt'
    have hasked := h.asked
    cases hflag : s.deleteOnTrashError with
    | true =>
      simp only [hflag, if_true] at hasked
      omega
    | false =>
      simp only [hflag, Bool.false_eq_true, if_false] at hasked
      exact h.answer hflag (by rwa [show s.world.asked = k by omega])
  · rintro ⟨k, hk, hlt, hremove⟩
    have hasked := h.asked
    exact ⟨k, by omega, hlt, hremove⟩

/-- A turn ends with the file settled, with another turn to come, or with skip or stop. -/
theorem deleteTurn_cases (s : DeleteState) (filename : Path) :
    ((deleteTurn o sendToTrash s filename).2 = .okToRemove ∧ TurnGranted o sendToTrash s filename ∧
        Settled o s (deleteTurn o sendToTrash s filename).1 filename) ∨
      ((deleteTurn o sendToTrash s filename).2 = .unknown ∧ ¬ TurnGranted o sendToTrash s filename ∧
        TurnRetries o sendToTrash s ∧
        Retried o s (deleteTurn o sendToTrash s filename).1 filename) ∨
      (((deleteTurn o sendToTrash s filename).2 = .skipFile ∨
          (deleteTurn o sendToTrash s filename).2 = .stopProcessing) ∧
        ¬ TurnGranted o sendToTrash s filename ∧ ¬ TurnRetries o sendToTrash s ∧
        ¬ Settled o s (deleteTurn o sendToTrash s filename).1 filename) := by
  by_cases hfile : filename ∈ s.world.disk.files
  swap
  · left
    simp [deleteTurn, exists?, hfile, TurnGranted, Settled]
  cases hsuccess : o.attempt s.world.attempts with
  | true =>
    left
    simp [deleteTurn, hsuccess, TurnGranted, Settled]
  | false =>
    cases hsilent : sendToTrash && s.deleteOnTrashError with
    | true =>
      -- the user has asked before for deleting what cannot be trashed
      right; left
      obtain ⟨rfl, hflag⟩ := Bool.and_eq_true_iff.1 hsilent
      refine ⟨?_, ?_, ?_, ?_⟩
      · simp [deleteTurn, exists?, hfile, hsuccess, hflag]
      · simp [TurnGranted, hfile, hsuccess, hflag]
      · exact ⟨rfl, Or.inl hflag⟩
      · constructor <;> simp [deleteTurn, exists?, hfile, hsuccess, hflag]
    | false =>
      -- the user is asked, once
      have hasked : (deleteTurn o sendToTrash s filename).1.world.asked = s.world.asked + 1 := by
        cases hanswer : o.answer s.world.asked <;> cases sendToTrash <;>
          simp_all [deleteTurn, exists?]
      rw [settled_iff_of_asked_succ hasked]
      cases sendToTrash with
      | false =>
        cases hanswer : o.answer s.world.asked <;>
          simp [deleteTurn, exists?, hfile, hsuccess, hanswer, TurnGranted, TurnRetries]
      | true =>
        have hflag : s.deleteOnTrashError = false := by simpa using hsilent
        have hretried : o.answer s.world.asked ≠ .remove →
            Retried o s (deleteTurn o true s filename).1 filename := by
          intro hne
          refine ⟨?_, ?_, ?_, fun _ => hne⟩
          · simp [hfile, hsuccess]
          · cases hanswer : o.answer s.world.asked <;>
              simp [deleteTurn, exists?, hfile, hsuccess, hflag, hanswer]
          · simp [hasked, hflag]
        cases hanswer : o.answer s.world.asked <;>
          simp_all [deleteTurn, exists?, TurnGranted, TurnRetries]

/-- A deletion ends with the file settled if it was granted, and with skip or stop if not. -/
theorem deleteFileFromDisk_cases (conf : Conf) (s : DeleteState) (filename : Path) :
    ((deleteFileFromDisk conf o s filename).2 = .okToRemove ∧ Granted conf o s filename ∧
        Settled o s (deleteFileFromDisk conf o s filename).1 filename) ∨
      (((deleteFileFromDisk conf o s filename).2 = .skipFile ∨
          (deleteFileFromDisk conf o s filename).2 = .stopProcessing) ∧
        ¬ Granted conf o s filename ∧
        ¬ Settled o s (deleteFileFromDisk conf o s filename).1 filename) := by
  obtain ⟨hstatus, hgranted, hsettled⟩ | ⟨hstatus, hnot, hretries, hretried⟩ |
      ⟨hstatus, hnot, hretries, hsettled⟩ := deleteTurn_cases (o := o) conf.sendToTrash s filename
  · rw [deleteFileFromDisk_of_ne_unknown (by simp [hstatus])]
    exact Or.inl ⟨hstatus, Or.inl hgranted, hsettled⟩
  · -- the second turn decides, and what it needs is what is left of `Granted`
    rw [deleteFileFromDisk_of_unknown hstatus]
    have hiff : Granted conf o s filename ↔
        TurnGranted o false (deleteTurn o conf.sendToTrash s filename).1 filename := by
      rw [Granted, or_iff_right hnot, and_iff_right hretries, TurnGranted,
        or_iff_right (not_not.2 hretried.file), hretried.attempts, hretried.asked, Bool.false_and,
        and_iff_right rfl]
    rw [hiff, hretried.settled_iff]
    obtain h | ⟨-, -, hretries', -⟩ | ⟨hstatus', hnot', -, hsettled'⟩ :=
      deleteTurn_cases (o := o) false (deleteTurn o conf.sendToTrash s filename).1 filename
    · exact Or.inl h
    · cases hretries'.1
    · exact Or.inr ⟨hstatus', hnot', hsettled'⟩
  · rw [deleteFileFromDisk_of_ne_unknown (by rcases hstatus with h | h <;> simp [h])]
    exact Or.inr ⟨hstatus, fun h => h.elim hnot fun h => hretries h.1, hsettled⟩

end Outcome

section Drop

/-- The file that is deleted for an image: its source if no other image has it, else its sidecar. -/
def ownFile (imgid : Nat) : Path :=
  if w.lib.duplicates imgid = 1 then (w.dtImageFullPath conf imgid false).1
  else dtImagePathAppendVersion w.lib imgid (w.dtImageFullPath conf imgid false).1 ++ xmpExt

/-- The world in which that deletion starts, with the image removed from the library. -/
def dropImage (imgid : Nat) : World :=
  removeFromDb conf o
    (if w.lib.duplicates imgid = 1 then (w.dtImageLocalCopyReset conf o imgid).1 else w) imgid

-- The loop goes on to the next image before anything is deleted.
def passedOver (imgid : Nat) : Bool :=
  w.lib.duplicates imgid = 1 && w.resetRefuses conf imgid

variable {conf : Conf} {o : Outcomes} {w : World} {s : DeleteState} {imgid : Nat}

theorem hasLocalCopyFlag_reset (h : w.resetRefuses conf imgid = false) :
    (w.dtImageLocalCopyReset conf o imgid).1.hasLocalCopyFlag imgid = false := by
  cases hflag : w.hasLocalCopyFlag imgid with
  | false => rwa [reset_of_no_flag hflag]
  | true =>
    rw [resetRefuses, hflag] at h
    rw [reset_of_not_refused hflag h, hasLocalCopyFlag, updateRow, Library.image?_update]
    cases himg : (w.localCopyDelete conf o imgid).lib.image? imgid with
    | none => rfl
    | some img =>
      rw [Option.map_some, if_pos (Library.image?_eq_some_iff.1 himg).2]
      rfl

/-- Without a refusal the row is taken away, and the only files that may go are the cached ones. -/
theorem dropImage_of_not_refused (h : w.resetRefuses conf imgid = false) :
    ∃ w', Quiet (· ∈ w.cacheFiles conf o imgid) w w' ∧
      dropImage conf o w imgid = { w' with lib := w'.lib.delete imgid } := by
  rw [dropImage]
  split
  · -- the local copy has been reset before, so the removal finds no flag and deletes nothing more
    have hflag := hasLocalCopyFlag_reset (o := o) h
    have hquiet : Quiet (· ∈ w.cacheFiles conf o imgid) w
        (w.dtImageLocalCopyReset conf o imgid).1 := quiet_dtImageLocalCopyReset w imgid
    generalize (w.dtImageLocalCopyReset conf o imgid).1 = w₁ at hflag hquiet
    have hnone : (setRemoveFlag w₁ (Nat.toDigits 10 imgid)).cacheFiles conf o imgid = [] := by
      rw [cacheFiles_setRemoveFlag, cacheFiles]
      simp [hflag]
    have href : (setRemoveFlag w₁ (Nat.toDigits 10 imgid)).resetRefuses conf imgid = false := by
      rw [resetRefuses_setRemoveFlag, resetRefuses, hflag, Bool.false_and]
    obtain ⟨w', hquiet', heq⟩ := dtImageRemove_of_not_refused (o := o) href
    refine ⟨w', (hquiet.trans (quiet_setRemoveFlag _)).trans (hquiet'.mono ?_), heq⟩
    rw [hnone]
    exact fun p hp => absurd hp not_mem_nil
  · rw [← resetRefuses_setRemoveFlag (Nat.toDigits 10 imgid)] at h
    obtain ⟨w', hquiet, heq⟩ := dtImageRemove_of_not_refused (o := o) h
    rw [cacheFiles_setRemoveFlag] at hquiet
    exact ⟨w', (quiet_setRemoveFlag _).trans hquiet, heq⟩

/-- With a refusal that is not looked at, the row stays, marked for removal. -/
theorem dropImage_of_refused (hdup : w.lib.duplicates imgid ≠ 1)
    (h : w.resetRefuses conf imgid = true) :
    dropImage conf o w imgid = setRemoveFlag w (Nat.toDigits 10 imgid) := by
  rw [dropImage, if_neg hdup, removeFromDb, dtImageRemove_of_refused]
  rwa [resetRefuses_setRemoveFlag]

theorem dropImage_eq (h : passedOver conf w imgid = false) :
    ∃ w', Quiet (· ∈ w.cacheFiles conf o imgid) w w' ∧ dropImage conf o w imgid =
      if w.resetRefuses conf imgid then w' else { w' with lib := w'.lib.delete imgid } := by
  cases href : w.resetRefuses conf imgid with
  | true =>
    have hdup : w.lib.duplicates imgid ≠ 1 := by simpa [passedOver, href] using h
    exact ⟨_, quiet_setRemoveFlag _, dropImage_of_refused hdup href⟩
  | false => exact dropImage_of_not_refused href

theorem mem_removed_dropImage {p : Path} (ho : ∀ n, o.fileOp n = true)
    (hp : p ∈ w.cacheFiles conf o imgid) : p ∈ (dropImage conf o w imgid).disk.removed := by
  rw [dropImage]
  split
  · refine removed_subset_dtImageRemove ?_
    rw [setRemoveFlag_disk]
    exact mem_removed_dtImageLocalCopyReset ho hp
  · rw [← cacheFiles_setRemoveFlag (Nat.toDigits 10 imgid)] at hp
    exact mem_removed_dtImageRemove ho hp

theorem deleteImage_of_passedOver (h : passedOver conf s.world imgid = true) :
    deleteImage conf o s imgid = (s, .unknown) := by
  simp only [passedOver, Bool.and_eq_true, decide_eq_true_eq] at h
  have hreset : s.world.dtImageLocalCopyReset conf o imgid = (s.world, true) := by
    obtain ⟨hflag, hrefused⟩ := Bool.and_eq_true_iff.1 h.2
    exact reset_of_refused hflag hrefused
  simp only [deleteImage]
  rw [if_pos h.1, hreset]

-- The leftovers `dt_image_find_duplicates` looks for.
def IsLeftover (p : Path) : Prop :=
  ∃ globPattern ∈ globPatterns, globMatch (duplicatePattern filename globPattern) p = true

instance (filename p : Path) : Decidable (IsLeftover filename p) := by
  unfold IsLeftover
  infer_instance

theorem mem_dtImageFindDuplicates {filename p : Path} :
    p ∈ dtImageFindDuplicates w filename ↔ p ∈ w.disk.files ∧ IsLeftover filename p := by
  simp only [dtImageFindDuplicates, mem_flatMap, mem_filter, IsLeftover]
  tauto

def ownDeletion (conf : Conf) (o : Outcomes) (s : DeleteState) (imgid : Nat) :
    DeleteState × DeleteStatus :=
  deleteFileFromDisk conf o { s with world := dropImage conf o s.world imgid }
    (ownFile conf s.world imgid)

theorem ownDeletion_snd_iff : (ownDeletion conf o s imgid).2 = .okToRemove ↔
    Granted conf o { s with world := dropImage conf o s.world imgid }
      (ownFile conf s.world imgid) := by
  obtain ⟨hok, hgranted, -⟩ | ⟨hstatus, hnot, -⟩ := deleteFileFromDisk_cases (o := o) conf
    { s with world := dropImage conf o s.world imgid } (ownFile conf s.world imgid)
  · exact iff_of_true hok hgranted
  · refine iff_of_false (fun hok => ?_) hnot
    rw [ownDeletion] at hok
    simp [hok] at hstatus

/-- The loop over the left-over sidecars is reached: the file of the image was its source, and its
deletion ends well. -/
def ReachesLeftovers (conf : Conf) (o : Outcomes) (s : DeleteState) (imgid : Nat) : Prop :=
  s.world.lib.duplicates imgid = 1 ∧
    Granted conf o { s with world := dropImage conf o s.world imgid } (ownFile conf s.world imgid)

instance (conf : Conf) (o : Outcomes) (s : DeleteState) (imgid : Nat) :
    Decidable (ReachesLeftovers conf o s imgid) := by
  unfold ReachesLeftovers Granted TurnGranted TurnRetries
  infer_instance

theorem deleteImage_eq (h : passedOver conf s.world imgid = false) :
    deleteImage conf o s imgid =
      if s.world.lib.duplicates imgid = 1 ∧ (ownDeletion conf o s imgid).2 = .okToRemove then
        deleteSidecars conf o (ownDeletion conf o s imgid).1
          (dtImageFindDuplicates (ownDeletion conf o s imgid).1.world
            (s.world.dtImageFullPath conf imgid false).1)
      else ownDeletion conf o s imgid := by
  by_cases hdup : s.world.lib.duplicates imgid = 1
  · have href : s.world.resetRefuses conf imgid = false := by
      simpa [passedOver, hdup] using h
    have hown : ownDeletion conf o s imgid = deleteFileFromDisk conf o
        { s with world := removeFromDb conf o (s.world.dtImageLocalCopyReset conf o imgid).1 imgid }
        (s.world.dtImageFullPath conf imgid false).1 := by
      rw [ownDeletion, dropImage, ownFile, if_pos hdup, if_pos hdup]
    simp only [deleteImage]
    rw [if_pos hdup, reset_eq_of_not_refuses href]
    simp only [← hown]
    split
    · rename_i heq
      rw [heq, if_pos ⟨hdup, rfl⟩]
    · rename_i hne
      rw [if_neg]
      rintro ⟨-, hok⟩
      exact hne _ (Prod.ext rfl hok)
  · simp only [deleteImage]
    rw [if_neg hdup, if_neg fun hok => hdup hok.1, ownDeletion, dropImage, ownFile, if_neg hdup,
      if_neg hdup]

theorem attempts_deleteImage (h : passedOver conf s.world imgid = false) :
    Attempts (fun p => p ∈ (ownDeletion conf o s imgid).1.world.disk.files ∧
        ReachesLeftovers conf o s imgid ∧
        IsLeftover (s.world.dtImageFullPath conf imgid false).1 p)
      (ownDeletion conf o s imgid).1 (deleteImage conf o s imgid).1 := by
  rw [deleteImage_eq h]
  split
  · rename_i hcond
    refine (attempts_deleteSidecars _ _).mono fun p hp => ?_
    obtain ⟨hfile, hleft⟩ := mem_dtImageFindDuplicates.1 hp
    exact ⟨hfile, ⟨hcond.1, ownDeletion_snd_iff.1 hcond.2⟩, hleft⟩
  · exact Attempts.refl _ _

/-- Where everything succeeds, the own file goes and, for a source, all left-over sidecars. -/
theorem mem_removed_deleteImage {p : Path} (ho : ∀ n, o.attempt n = true)
    (h : passedOver conf s.world imgid = false)
    (hfile : p ∈ (dropImage conf o s.world imgid).disk.files)
    (hp : p = ownFile conf s.world imgid ∨ (ReachesLeftovers conf o s imgid ∧
      IsLeftover (s.world.dtImageFullPath conf imgid false).1 p)) :
    p ∈ (deleteImage conf o s imgid).1.world.disk.removed := by
  have hown : (ownDeletion conf o s imgid).2 = .okToRemove ∧
      (ownDeletion conf o s imgid).1.world.disk =
        (dropImage conf o s.world imgid).disk.remove (ownFile conf s.world imgid) true :=
    deleteFileFromDisk_of_succeeds ho _ _
  by_cases heq : p = ownFile conf s.world imgid
  · refine (attempts_deleteImage h).grows p ?_
    rw [hown.2, Disk.mem_removed_remove]
    exact Or.inr ⟨rfl, heq ▸ hfile, heq⟩
  · obtain ⟨⟨hdup, -⟩, hleft⟩ := hp.resolve_left heq
    have hfile' : p ∈ (ownDeletion conf o s imgid).1.world.disk.files := by
      rw [hown.2, Disk.mem_remove]
      exact ⟨hfile, fun h => heq h.2⟩
    rw [deleteImage_eq h, if_pos ⟨hdup, hown.1⟩]
    exact mem_removed_deleteSidecars ho _ _
      (Or.inr ⟨mem_dtImageFindDuplicates.2 ⟨hfile', hleft⟩, hfile'⟩)

end Drop

end DTLite
