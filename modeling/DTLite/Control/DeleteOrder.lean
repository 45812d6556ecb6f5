import DTLite.Control.DeleteImages

/-! The delete job removes an image from the library before it deletes the file. What that costs: an
image whose file could not be deleted is gone from the library all the same. -/

namespace DTLite

open Reasoning List

section Step

variable (conf : Conf) (o : Outcomes) (s : DeleteState) (imgid : Nat)

-- Image `j` is in the library before the step of `imgid`, and not after it.
def LeavesLibrary (j : Nat) : Prop :=
  (s.world.lib.image? j).isSome = true ∧ (deleteStep conf o s imgid).world.lib.image? j = none

/-- Only the image at hand leaves the library, and only with its file settled; not if the deletion
ended with skip or stop. -/
structure DeletesInOrder : Prop where
  settled : ∀ j, LeavesLibrary conf o s imgid j →
    j = imgid ∧ Settled o s (deleteStep conf o s imgid) (ownFile conf s.world imgid)
  kept : (deleteImage conf o s imgid).2 = .skipFile ∨
    (deleteImage conf o s imgid).2 = .stopProcessing → ¬ LeavesLibrary conf o s imgid imgid

-- The deletion of each file ends well, one after the other.
def AllGranted (s : DeleteState) (files : List Path) : Prop :=
  AllSteps (fun s file => (deleteFileFromDisk conf o s file).1) (Granted conf o) s files

/-- If the image is going to leave the library, the deletion of its file ends well, and so does that
of each sidecar that is found where the file was the source. -/
def DeletionAccepted : Prop :=
  s.stopped = false → (s.world.lib.image? imgid).isSome = true →
    s.world.resetRefuses conf imgid = false →
      Granted conf o { s with world := dropImage conf o s.world imgid }
          (ownFile conf s.world imgid) ∧
        (s.world.lib.duplicates imgid = 1 → AllGranted conf o (ownDeletion conf o s imgid).1
          (dtImageFindDuplicates (ownDeletion conf o s imgid).1.world
            (s.world.dtImageFullPath conf imgid false).1))

variable {conf o s imgid}

theorem deleteStep_of_stopped (h : s.stopped = true) : deleteStep conf o s imgid = s := by
  rw [deleteStep, if_pos h]

theorem deleteStep_world (h : s.stopped = false) :
    (deleteStep conf o s imgid).world = (deleteImage conf o s imgid).1.world := by
  rw [deleteStep, h]
  rfl

theorem deleteStep_world_of_passedOver (h : passedOver conf s.world imgid = true) :
    (deleteStep conf o s imgid).world = s.world := by
  cases hstop : s.stopped with
  | true => rw [deleteStep_of_stopped hstop]
  | false => rw [deleteStep_world hstop, deleteImage_of_passedOver h]

theorem deleteStep_lib (hstop : s.stopped = false) (h : passedOver conf s.world imgid = false) :
    (deleteStep conf o s imgid).world.lib = (dropImage conf o s.world imgid).lib := by
  rw [deleteStep_world hstop, (attempts_deleteImage h).lib]
  exact (attempts_deleteFileFromDisk _ _).lib

theorem rows_dropImage (h : passedOver conf s.world imgid = false) :
    (dropImage conf o s.world imgid).lib.rows =
      if s.world.resetRefuses conf imgid then s.world.lib.rows
      else s.world.lib.rows.filter (·.id ≠ imgid) := by
  obtain ⟨w', hquiet, heq⟩ := dropImage_eq (o := o) h
  rw [heq]
  split
  · exact hquiet.rows
  · rw [Library.rows_delete, hquiet.rows]

theorem asked_dropImage (h : passedOver conf s.world imgid = false) :
    (dropImage conf o s.world imgid).asked = s.world.asked := by
  obtain ⟨w', hquiet, heq⟩ := dropImage_eq (o := o) h
  rw [heq]
  split <;> exact hquiet.asked

/-- A step takes away the row of its image if it is not refused, and no other. -/
theorem rows_deleteStep (hstop : s.stopped = false) :
    (deleteStep conf o s imgid).world.lib.rows =
      if s.world.resetRefuses conf imgid then s.world.lib.rows
      else s.world.lib.rows.filter (·.id ≠ imgid) := by
  cases h : passedOver conf s.world imgid with
  | true =>
    have href : s.world.resetRefuses conf imgid = true := (Bool.and_eq_true_iff.1 h).2
    rw [deleteStep_world_of_passedOver h, href, if_pos rfl]
  | false => rw [deleteStep_lib hstop h, rows_dropImage h]

theorem leavesLibrary_iff (j : Nat) : LeavesLibrary conf o s imgid j ↔
    j = imgid ∧ s.stopped = false ∧ (s.world.lib.image? imgid).isSome = true ∧
      s.world.resetRefuses conf imgid = false := by
  cases hstop : s.stopped with
  | true =>
    rw [LeavesLibrary, deleteStep_of_stopped hstop]
    refine iff_of_false ?_ (by simp)
    rintro ⟨hsome, hnone⟩
    simp [hnone] at hsome
  | false =>
    rw [LeavesLibrary, Library.isSome_image?_iff_rows, Library.isSome_image?_iff_rows,
      Library.image?_eq_none_iff_rows, rows_deleteStep hstop]
    cases href : s.world.resetRefuses conf imgid with
    | true =>
      refine iff_of_false ?_ (by simp)
      rintro ⟨⟨file, hfile, hid⟩, hall⟩
      exact hall file hfile hid
    | false =>
      simp only [Bool.false_eq_true, if_false, mem_filter, decide_eq_true_eq, true_and, and_true]
      constructor
      · rintro ⟨⟨file, hfile, hid⟩, hall⟩
        have hj : j = imgid := by
          by_contra hne
          exact hall file ⟨hfile, fun heq => hne (hid.symm.trans heq)⟩ hid
        exact ⟨hj, file, hfile, hid.trans hj⟩
      · rintro ⟨rfl, hfile⟩
        exact ⟨hfile, fun file hmem => hmem.2⟩

theorem Settled.of_attempts {s₀ s s' : DeleteState} {filename : Path} {gone : Path → Prop}
    (h : Settled o s₀ s filename) (hattempts : Attempts gone s s') : Settled o s₀ s' filename := by
  obtain hgone | ⟨k, hle, hlt, hremove⟩ := h
  · exact Or.inl fun hfile => hgone (hattempts.files filename hfile)
  · exact Or.inr ⟨k, hle, hlt.trans_le hattempts.asked, hremove⟩

theorem settled_deleteStep_iff (hstop : s.stopped = false)
    (h : passedOver conf s.world imgid = false) :
    Settled o s (deleteStep conf o s imgid) (ownFile conf s.world imgid) ↔
      Granted conf o { s with world := dropImage conf o s.world imgid }
        (ownFile conf s.world imgid) := by
  -- no dialog has been opened when the deletion starts
  have hstart : Settled o s (deleteStep conf o s imgid) (ownFile conf s.world imgid) ↔
      Settled o { s with world := dropImage conf o s.world imgid } (deleteImage conf o s imgid).1
        (ownFile conf s.world imgid) := by
    rw [Settled, Settled, deleteStep_world hstop]
    simp [asked_dropImage h]
  rw [hstart]
  obtain ⟨-, hgranted, hsettled⟩ | ⟨-, hnot, hsettled⟩ :=
    deleteFileFromDisk_cases (o := o) conf { s with world := dropImage conf o s.world imgid }
      (ownFile conf s.world imgid)
  · exact iff_of_true (hsettled.of_attempts (attempts_deleteImage h)) hgranted
  · -- nothing follows a deletion that ended with skip or stop
    have hsame : deleteImage conf o s imgid = ownDeletion conf o s imgid := by
      rw [deleteImage_eq h, if_neg fun hok => hnot (ownDeletion_snd_iff.1 hok.2)]
    rw [hsame]
    exact iff_of_false hsettled hnot

/-- The loop over the sidecars gets to its end, or is left with skip or stop. -/
theorem deleteSidecars_cases (s : DeleteState) (files : List Path) :
    ((deleteSidecars conf o s files).2 = .okToRemove ∧ AllGranted conf o s files) ∨
      (((deleteSidecars conf o s files).2 = .skipFile ∨
          (deleteSidecars conf o s files).2 = .stopProcessing) ∧
        ¬ AllGranted conf o s files) := by
  induction files generalizing s with
  | nil => exact Or.inl ⟨rfl, trivial⟩
  | cons file files ih =>
    rw [deleteSidecars]
    obtain ⟨hok, hgranted, -⟩ | ⟨hstatus, hnot, -⟩ :=
      deleteFileFromDisk_cases (o := o) conf s file
    · rw [show deleteFileFromDisk conf o s file =
        ((deleteFileFromDisk conf o s file).1, .okToRemove) from Prod.ext rfl hok]
      exact (ih _).imp (fun h => ⟨h.1, hgranted, h.2⟩) fun h => ⟨h.1, fun hall => h.2 hall.2⟩
    · split
      · rename_i heq
        simp [heq] at hstatus
      · exact Or.inr ⟨hstatus, fun hall => hnot hall.1⟩

theorem deletesInOrder_iff : DeletesInOrder conf o s imgid ↔ DeletionAccepted conf o s imgid := by
  have hpassed : s.world.resetRefuses conf imgid = false →
      passedOver conf s.world imgid = false := by
    intro href
    rw [passedOver, href, Bool.and_false]
  constructor
  · intro hord hstop hsome href
    have hleaves := (leavesLibrary_iff (o := o) imgid).2 ⟨rfl, hstop, hsome, href⟩
    have hgranted := (settled_deleteStep_iff hstop (hpassed href)).1 (hord.settled imgid hleaves).2
    refine ⟨hgranted, fun hdup => ?_⟩
    have hkept := fun h => hord.kept h hleaves
    rw [deleteImage_eq (hpassed href), if_pos ⟨hdup, ownDeletion_snd_iff.2 hgranted⟩] at hkept
    exact ((deleteSidecars_cases _ _).resolve_right fun h => hkept h.1).2
  · intro hacc
    constructor
    · intro j hleaves
      obtain ⟨rfl, hstop, hsome, href⟩ := (leavesLibrary_iff j).1 hleaves
      exact ⟨rfl, (settled_deleteStep_iff hstop (hpassed href)).2 (hacc hstop hsome href).1⟩
    · intro hstatus hleaves
      obtain ⟨-, hstop, hsome, href⟩ := (leavesLibrary_iff imgid).1 hleaves
      obtain ⟨hgranted, hsidecars⟩ := hacc hstop hsome href
      have hok := ownDeletion_snd_iff.2 hgranted
      rw [deleteImage_eq (hpassed href)] at hstatus
      by_cases hdup : s.world.lib.duplicates imgid = 1
      · rw [if_pos ⟨hdup, hok⟩] at hstatus
        obtain ⟨hdone, -⟩ | ⟨-, hnot⟩ := @deleteSidecars_cases conf o
          (ownDeletion conf o s imgid).1 (dtImageFindDuplicates
            (ownDeletion conf o s imgid).1.world (s.world.dtImageFullPath conf imgid false).1)
        · simp [hdone] at hstatus
        · exact hnot (hsidecars hdup)
      · rw [if_neg fun h => hdup h.1] at hstatus
        simp [hok] at hstatus

end Step

section Run

variable {conf : Conf} {o : Outcomes}

theorem foldl_deleteStep_of_stopped {s : DeleteState} (h : s.stopped = true) (ids : List Nat) :
    ids.foldl (deleteStep conf o) s = s := by
  induction ids with
  | nil => rfl
  | cons imgid ids ih => rw [foldl_cons, deleteStep_of_stopped h, ih]

theorem dtControlDeleteImagesJobRun_images (w : World) (ids : List Nat) :
    (dtControlDeleteImagesJobRun conf o w ids).lib.images =
      (ids.foldl (deleteStep conf o) (deleteStart w)).world.lib.images := by
  change (synchAll conf o _ _).lib.images = _
  rw [synchAll_lib]

theorem dtControlDeleteImagesJobRun_of_stopped {w : World} {ids done rest : List Nat}
    (hids : ids = done ++ rest) (hrest : rest ≠ [])
    (hstopped : (done.foldl (deleteStep conf o) (deleteStart w)).stopped = true) :
    dtControlDeleteImagesJobRun conf o w ids =
      (done.foldl (deleteStep conf o) (deleteStart w)).world.dtFilmRemoveEmpty := by
  have hdone : done ≠ [] := by
    rintro rfl
    exact absurd hstopped (by simp [deleteStart])
  have hlength : ids.length ≠ 1 := by
    have h₁ := length_pos_iff.2 hdone
    have h₂ := length_pos_iff.2 hrest
    rw [hids, length_append]
    omega
  have hlist : getFullPathname w (getImageList ids) = [] := by
    rw [getFullPathname, boundId_eq_none hlength]
  rw [dtControlDeleteImagesJobRun, hlist, hids, foldl_append, foldl_deleteStep_of_stopped hstopped]
  rfl

end Run

/-- Images leave the library in their own step and in order, a stop ends the job, but for empty film
rolls, and nothing else happens to the images. -/
structure DeletesProperly (conf : Conf) (o : Outcomes) (w : World) (ids : List Nat) : Prop where
  inOrder : AllSteps (deleteStep conf o) (DeletesInOrder conf o) (deleteStart w) ids
  stop : ∀ done rest, ids = done ++ rest → rest ≠ [] →
    (done.foldl (deleteStep conf o) (deleteStart w)).stopped = true →
      dtControlDeleteImagesJobRun conf o w ids =
        (done.foldl (deleteStep conf o) (deleteStart w)).world.dtFilmRemoveEmpty
  images : (dtControlDeleteImagesJobRun conf o w ids).lib.images =
    (ids.foldl (deleteStep conf o) (deleteStart w)).world.lib.images

/-- The job deletes properly exactly if the file of every image that leaves the library can be
deleted, is missing, or is given up by the user, and so the sidecars left over of a source. -/
theorem deletesProperly_iff (conf : Conf) (o : Outcomes) (w : World) (ids : List Nat) :
    DeletesProperly conf o w ids ↔
      AllSteps (deleteStep conf o) (DeletionAccepted conf o) (deleteStart w) ids := by
  constructor
  · intro h
    exact h.inOrder.mono fun s imgid => deletesInOrder_iff.1
  · intro h
    exact ⟨h.mono fun s imgid => deletesInOrder_iff.2, fun done rest hids =>
      dtControlDeleteImagesJobRun_of_stopped hids, dtControlDeleteImagesJobRun_images w ids⟩

-- The drive is read-only, and the user skips the file.
def skipAll : Outcomes where
  fileOp _ := true
  attempt _ := false
  answer _ := .continue

def singleWorld : World :=
  sampleWorld [sampleA false] (by decide) ["/p/A.raw", "/p/A.raw.xmp"]

theorem delete_skipped_leaves_library :
    (singleWorld.lib.image? 1).isSome = true ∧
      (dtControlDeleteImagesJobRun sampleConf skipAll singleWorld [1]).lib.image? 1 = none ∧
      "/p/A.raw".toList ∈
        (dtControlDeleteImagesJobRun sampleConf skipAll singleWorld [1]).disk.files ∧
      (deleteImage sampleConf skipAll (deleteStart singleWorld) 1).2 = .skipFile := by
  decide

end DTLite
