import DTLite.Control.DeleteOrder

/-! The files the delete job removes, and the images that are still in the library when it ends. -/

namespace DTLite

open Reasoning List Option Library

def sidecarOf (file : ImageFile) (filename : Path) : Path :=
  dtImagePathAppendVersionNoDb file.version filename ++ xmpExt

-- Neither of the two files of an image has been removed so far.
def Spared (file : ImageFile) (filename : Path) (w : World) : Prop :=
  filename ∉ w.disk.removed ∧ sidecarOf file filename ∉ w.disk.removed

/-- No file removed so far is the source or the sidecar of an image of the library. -/
def SparesRemaining (w : World) : Prop :=
  ∀ file ∈ w.lib.rows, ∀ filename ∈ w.lib.rowPath? file, Spared file filename w

instance (w : World) : Decidable (SparesRemaining w) := by
  unfold SparesRemaining Spared
  infer_instance

def Library.DistinctFolders (lib : Library) : Prop := (lib.filmRolls.map (·.folder)).Nodup

instance (lib : Library) : Decidable lib.DistinctFolders :=
  inferInstanceAs (Decidable (lib.filmRolls.map (·.folder)).Nodup)

/-- What the step of `imgid` deletes is no file of the other image `file`: neither a cached file
nor, of what is on disk then, the own file or, if they are looked for, a left-over sidecar. An image
alone with its source cannot take another one's. -/
def FilesApart (conf : Conf) (o : Outcomes) (s : DeleteState) (imgid : Nat) (file : ImageFile)
    (filename : Path) : Prop :=
  (∀ p ∈ s.world.cacheFiles conf o imgid, p ≠ filename ∧ p ≠ sidecarOf file filename) ∧
    (sidecarOf file filename ∈ (dropImage conf o s.world imgid).disk.files →
      ownFile conf s.world imgid ≠ sidecarOf file filename ∧
        (ReachesLeftovers conf o s imgid →
          ¬ IsLeftover (s.world.dtImageFullPath conf imgid false).1 (sidecarOf file filename))) ∧
    (filename ∈ (dropImage conf o s.world imgid).disk.files →
      if s.world.lib.duplicates imgid = 1 then ReachesLeftovers conf o s imgid →
        ¬ IsLeftover (s.world.dtImageFullPath conf imgid false).1 filename
      else ownFile conf s.world imgid ≠ filename)

instance (conf : Conf) (o : Outcomes) (s : DeleteState) (imgid : Nat) (file : ImageFile)
    (filename : Path) : Decidable (FilesApart conf o s imgid file filename) := by
  unfold FilesApart
  infer_instance

/-- What the step deletes is apart from the files of `file`; if that is the image itself and its
removal is refused, its sidecar is not there. -/
def DeleteSafe (conf : Conf) (o : Outcomes) (s : DeleteState) (imgid : Nat) (file : ImageFile)
    (filename : Path) : Prop :=
  passedOver conf s.world imgid = false →
    if file.id = imgid then
      s.world.resetRefuses conf imgid = true → ownFile conf s.world imgid ∉ s.world.disk.files
    else FilesApart conf o s imgid file filename

instance (conf : Conf) (o : Outcomes) (s : DeleteState) (imgid : Nat) (file : ImageFile)
    (filename : Path) : Decidable (DeleteSafe conf o s imgid file filename) := by
  unfold DeleteSafe
  infer_instance

section Source

variable {lib : Library} {imgid : Nat} {filename : Path}

theorem Library.rowPath?_inj (hfolders : lib.DistinctFolders) {file file' : ImageFile}
    (h : lib.rowPath? file = some filename)
    (h' : lib.rowPath? file' = some filename) :
    file.filmId = file'.filmId ∧ file.filename = file'.filename := by
  obtain ⟨roll, hroll, rfl⟩ := map_eq_some_iff.1 h
  obtain ⟨roll', hroll', heq⟩ := map_eq_some_iff.1 h'
  obtain ⟨hfolder, hname⟩ := append_cons_inj file'.filename_ok.2 file.filename_ok.2 heq
  rw [filmRoll?_eq_some_iff] at hroll hroll'
  have hsame : roll' = roll := inj_on_of_nodup_map hfolders hroll'.1 hroll.1 hfolder
  rw [← hroll.2, ← hroll'.2, hsame]
  exact ⟨rfl, hname.symm⟩

theorem source_ne_of_duplicates_eq_one (hfolders : lib.DistinctFolders)
    (hdup : lib.duplicates imgid = 1) {file : ImageFile} (hfile : file ∈ lib.rows)
    (hid : file.id ≠ imgid) (hpath : lib.rowPath? file = some filename) :
    (lib.path? imgid).getD [] ≠ filename := by
  intro hsource
  cases himg : lib.image? imgid with
  | none => simp [duplicates, himg] at hdup
  | some img =>
    have hpath' : lib.rowPath? img.toImageFile = some filename := by
      have hown : lib.path? imgid = lib.rowPath? img.toImageFile := by
        rw [path?, himg, bind_some]
      rw [hown] at hsource
      cases hrow : lib.rowPath? img.toImageFile with
      | none =>
        -- an image without a film roll has no path, and no image's path is empty
        obtain ⟨roll, -, hfilename⟩ := map_eq_some_iff.1 hpath
        rw [hrow, ← hfilename] at hsource
        simp at hsource
      | some filename' =>
        rw [hrow, getD_some] at hsource
        rw [hsource]
    obtain ⟨hfilm, hname⟩ := rowPath?_inj hfolders hpath hpath'
    obtain ⟨img', hmem', rfl⟩ := mem_map.1 hfile
    -- the two rows are among the one that is counted
    rw [duplicates, himg] at hdup
    simp only [countP_eq_length_filter] at hdup
    obtain ⟨only, honly⟩ := length_eq_one_iff.1 hdup
    have hmem : ∀ i ∈ lib.images, i.filename = img.filename ∧ i.filmId = img.filmId → i = only := by
      intro i hi hsame
      have : i ∈ lib.images.filter fun other =>
          other.filename = img.filename ∧ other.filmId = img.filmId :=
        mem_filter.2 ⟨hi, by simpa using hsame⟩
      rwa [honly, mem_singleton] at this
    obtain ⟨himgmem, himgid⟩ := image?_eq_some_iff.1 himg
    apply hid
    rw [hmem img' hmem' ⟨hname, hfilm⟩, ← hmem img himgmem ⟨rfl, rfl⟩, himgid]

theorem ownFile_eq_sidecarOf {conf : Conf} {w : World} (hdup : w.lib.duplicates imgid ≠ 1)
    {file : ImageFile} (hfile : file ∈ w.lib.rows) (hid : file.id = imgid)
    (hpath : w.lib.rowPath? file = some filename) :
    ownFile conf w imgid = sidecarOf file filename := by
  obtain ⟨img, hmem, rfl⟩ := mem_map.1 hfile
  have himg : w.lib.image? imgid = some img := image?_eq_some_iff.2 ⟨hmem, hid⟩
  have hfull : (w.dtImageFullPath conf imgid false).1 = filename := by
    change (w.lib.path? imgid).getD [] = filename
    rw [path?, himg, bind_some, hpath, getD_some]
  rw [ownFile, if_neg hdup, hfull, dtImagePathAppendVersion, himg]
  rfl

end Source

section Step

variable {conf : Conf} {o : Outcomes} {s : DeleteState} {imgid : Nat} {p : Path}

theorem filmRolls_deleteStep :
    (deleteStep conf o s imgid).world.lib.filmRolls = s.world.lib.filmRolls := by
  cases hstop : s.stopped with
  | true => rw [deleteStep_of_stopped hstop]
  | false =>
    cases h : passedOver conf s.world imgid with
    | true => rw [deleteStep_world_of_passedOver h]
    | false =>
      obtain ⟨w', hquiet, heq⟩ := dropImage_eq (o := o) h
      rw [deleteStep_lib hstop h, heq]
      split <;> exact hquiet.filmRolls

/-- What a step may remove. -/
def MayRemove (conf : Conf) (o : Outcomes) (s : DeleteState) (imgid : Nat) (p : Path) : Prop :=
  p ∈ s.world.cacheFiles conf o imgid ∨
    (p ∈ (dropImage conf o s.world imgid).disk.files ∧
      (p = ownFile conf s.world imgid ∨
        (ReachesLeftovers conf o s imgid ∧
          IsLeftover (s.world.dtImageFullPath conf imgid false).1 p)))

theorem mem_removed_deleteStep (hstop : s.stopped = false)
    (h : passedOver conf s.world imgid = false)
    (hp : p ∈ (deleteStep conf o s imgid).world.disk.removed) :
    p ∈ s.world.disk.removed ∨ MayRemove conf o s imgid p := by
  rw [deleteStep_world hstop] at hp
  have hown : Attempts _ { s with world := dropImage conf o s.world imgid }
      (ownDeletion conf o s imgid).1 := attempts_deleteFileFromDisk _ _
  obtain hp | ⟨hfile, hleft⟩ := (attempts_deleteImage h).removed p hp
  · obtain hp | ⟨heq, hfile⟩ := hown.removed p hp
    · obtain ⟨w', hquiet, heq⟩ := dropImage_eq (o := o) h
      have hdisk : (dropImage conf o s.world imgid).disk = w'.disk := by
        rw [heq]
        split <;> rfl
      rw [hdisk] at hp
      exact (hquiet.removed p hp).imp_right Or.inl
    · exact Or.inr (Or.inr ⟨hfile, Or.inl heq⟩)
  · exact Or.inr (Or.inr ⟨hown.files p hfile, Or.inr hleft⟩)

theorem removed_subset_deleteStep (hp : p ∈ s.world.disk.removed) :
    p ∈ (deleteStep conf o s imgid).world.disk.removed := by
  cases hstop : s.stopped with
  | true => rwa [deleteStep_of_stopped hstop]
  | false =>
    cases h : passedOver conf s.world imgid with
    | true => rwa [deleteStep_world_of_passedOver h]
    | false =>
      obtain ⟨w', hquiet, heq⟩ := dropImage_eq (o := o) h
      have hdrop : p ∈ (dropImage conf o s.world imgid).disk.removed := by
        rw [heq]
        split <;> exact hquiet.grows p hp
      rw [deleteStep_world hstop]
      exact (attempts_deleteImage h).grows p ((attempts_deleteFileFromDisk _ _).grows p hdrop)

/-- Where everything succeeds, a step removes all of what it may remove. -/
theorem mem_removed_deleteStep_of_succeeds (ho : o.AlwaysSucceed) (hstop : s.stopped = false)
    (h : passedOver conf s.world imgid = false)
    (hp : MayRemove conf o s imgid p) : p ∈ (deleteStep conf o s imgid).world.disk.removed := by
  rw [deleteStep_world hstop]
  obtain hcache | ⟨hfile, hwhich⟩ := hp
  · exact (attempts_deleteImage h).grows p
      ((attempts_deleteFileFromDisk _ _).grows p (mem_removed_dropImage ho.1 hcache))
  · exact mem_removed_deleteImage ho.2 h hfile hwhich

variable {file : ImageFile} {filename : Path}

theorem mem_rows_deleteStep (hstop : s.stopped = false) :
    file ∈ (deleteStep conf o s imgid).world.lib.rows ↔
      file ∈ s.world.lib.rows ∧ (file.id = imgid → s.world.resetRefuses conf imgid = true) := by
  rw [rows_deleteStep hstop]
  cases s.world.resetRefuses conf imgid with
  | true => simp
  | false => simp

/-- A safe step removes neither file of an image that it leaves in the library. -/
theorem spared_deleteStep (hfolders : s.world.lib.DistinctFolders)
    (hpath : s.world.lib.rowPath? file = some filename) (hspared : Spared file filename s.world)
    (hstop : s.stopped = false) (hleft : file ∈ (deleteStep conf o s imgid).world.lib.rows)
    (hsafe : DeleteSafe conf o s imgid file filename) :
    Spared file filename (deleteStep conf o s imgid).world := by
  cases h : passedOver conf s.world imgid with
  | true => rwa [deleteStep_world_of_passedOver h]
  | false =>
    rw [mem_rows_deleteStep hstop] at hleft
    have hrow := hsafe h
    suffices hapart : ∀ p ∈ (deleteStep conf o s imgid).world.disk.removed,
        p ≠ filename ∧ p ≠ sidecarOf file filename from
      ⟨fun hp => (hapart _ hp).1 rfl, fun hp => (hapart _ hp).2 rfl⟩
    intro p hp
    obtain hp | hwhich := mem_removed_deleteStep hstop h hp
    · exact ⟨fun heq => hspared.1 (heq ▸ hp), fun heq => hspared.2 (heq ▸ hp)⟩
    by_cases hid : file.id = imgid
    · -- refused: nothing is deleted but the own sidecar, which is not there
      have href := hleft.2 hid
      have hdup : s.world.lib.duplicates imgid ≠ 1 := by simpa [passedOver, href] using h
      rw [if_pos hid] at hrow
      obtain hp | ⟨hp, rfl | ⟨hdup', -⟩⟩ := hwhich
      · rw [World.resetRefuses, (World.mem_cacheFiles.1 hp).2.1, Bool.and_false] at href
        cases href
      · rw [dropImage_of_refused hdup href, setRemoveFlag_disk] at hp
        exact absurd hp (hrow href)
      · exact absurd hdup'.1 hdup
    · rw [if_neg hid] at hrow
      obtain ⟨hcache, hside, hsource⟩ := hrow
      obtain hp | ⟨hp, hwhich⟩ := hwhich
      · exact hcache p hp
      constructor
      · rintro rfl
        specialize hsource hp
        split at hsource
        · rename_i hdup
          obtain heq | ⟨hreached, hleftover⟩ := hwhich
          · rw [ownFile, if_pos hdup] at heq
            exact source_ne_of_duplicates_eq_one hfolders hdup hleft.1 hid hpath heq.symm
          · exact hsource hreached hleftover
        · rename_i hdup
          exact hwhich.elim (fun heq => hsource heq.symm) fun hleftover => hdup hleftover.1.1
      · rintro rfl
        obtain heq | ⟨hreached, hleftover⟩ := hwhich
        · exact (hside hp).1 heq.symm
        · exact (hside hp).2 hreached hleftover

/-- Where everything succeeds, only a safe step spares an image that it leaves in the library. -/
theorem deleteSafe_of_spared (ho : o.AlwaysSucceed) (hfile : file ∈ s.world.lib.rows)
    (hpath : s.world.lib.rowPath? file = some filename) (hstop : s.stopped = false)
    (hspared : file ∈ (deleteStep conf o s imgid).world.lib.rows →
      Spared file filename (deleteStep conf o s imgid).world) :
    DeleteSafe conf o s imgid file filename := by
  intro h
  rw [mem_rows_deleteStep hstop] at hspared
  have hgone {p : Path} := mem_removed_deleteStep_of_succeeds (p := p) ho hstop h
  by_cases hid : file.id = imgid
  · rw [if_pos hid]
    intro href hown
    have hdup : s.world.lib.duplicates imgid ≠ 1 := by simpa [passedOver, href] using h
    have hdrop : ownFile conf s.world imgid ∈ (dropImage conf o s.world imgid).disk.files := by
      rwa [dropImage_of_refused hdup href, setRemoveFlag_disk]
    have hside : ownFile conf s.world imgid = sidecarOf file filename :=
      ownFile_eq_sidecarOf hdup hfile hid hpath
    apply (hspared ⟨hfile, fun _ => href⟩).2
    rw [← hside]
    exact hgone (Or.inr ⟨hdrop, Or.inl rfl⟩)
  · rw [if_neg hid]
    obtain ⟨hsource, hside⟩ := hspared ⟨hfile, fun h => absurd h hid⟩
    refine ⟨fun p hp => ⟨?_, ?_⟩, fun hdisk => ⟨?_, ?_⟩, fun hdisk => ?_⟩
    · rintro rfl
      exact hsource (hgone (Or.inl hp))
    · rintro rfl
      exact hside (hgone (Or.inl hp))
    · exact fun heq => hside (hgone (Or.inr ⟨hdisk, Or.inl heq.symm⟩))
    · exact fun hreached hleft => hside (hgone (Or.inr ⟨hdisk, Or.inr ⟨hreached, hleft⟩⟩))
    · split
      · exact fun hreached hleft => hsource (hgone (Or.inr ⟨hdisk, Or.inr ⟨hreached, hleft⟩⟩))
      · exact fun heq => hsource (hgone (Or.inr ⟨hdisk, Or.inl heq.symm⟩))

end Step

/-- The next step is safe for an image, as long as that is in the library. -/
def DeleteState.Safe (conf : Conf) (o : Outcomes) (file : ImageFile) (filename : Path)
    (s : DeleteState) (imgid : Nat) : Prop :=
  s.stopped = false → file ∈ s.world.lib.rows → DeleteSafe conf o s imgid file filename

instance decidableDeleteStateSafe (conf : Conf) (o : Outcomes) (file : ImageFile) (filename : Path)
    (s : DeleteState) (imgid : Nat) : Decidable (s.Safe conf o file filename imgid) := by
  unfold DeleteState.Safe
  infer_instance

/-- Every step of the job is safe for every image that is in the library when the job ends. -/
def StepsSafe (conf : Conf) (o : Outcomes) (w : World) (ids : List Nat) : Prop :=
  ∀ file ∈ (dtControlDeleteImagesJobRun conf o w ids).lib.rows,
    ∀ filename ∈ w.lib.rowPath? file,
      AllSteps (deleteStep conf o) (DeleteState.Safe conf o file filename) (deleteStart w) ids

instance (conf : Conf) (o : Outcomes) (w : World) (ids : List Nat) :
    Decidable (StepsSafe conf o w ids) := by
  unfold StepsSafe
  infer_instance

section Run

variable {conf : Conf} {o : Outcomes} {w : World} {ids : List Nat} {file : ImageFile}
  {filename : Path}

theorem rowPath?_dtFilmRemoveEmpty {lib : Library} (hfile : file ∈ lib.rows) :
    lib.dtFilmRemoveEmpty.rowPath? file = lib.rowPath? file := by
  obtain ⟨img, hmem, rfl⟩ := List.mem_map.1 hfile
  rw [rowPath?]
  congr 1
  ext roll
  rw [filmRoll?_eq_some_iff, filmRoll?_eq_some_iff]
  simp only [dtFilmRemoveEmpty, mem_filter, List.any_eq_true, decide_eq_true_eq]
  constructor
  · exact fun h => ⟨h.1.1, h.2⟩
  · exact fun h => ⟨⟨h.1, img, hmem, h.2.symm⟩, h.2⟩

theorem filmRolls_foldl_deleteStep (s : DeleteState) (ids : List Nat) :
    (ids.foldl (deleteStep conf o) s).world.lib.filmRolls = s.world.lib.filmRolls := by
  induction ids generalizing s with
  | nil => rfl
  | cons imgid ids ih => rw [foldl_cons, ih, filmRolls_deleteStep]

theorem rows_job : (dtControlDeleteImagesJobRun conf o w ids).lib.rows =
    (ids.foldl (deleteStep conf o) (deleteStart w)).world.lib.rows := by
  simp only [dtControlDeleteImagesJobRun, World.dtFilmRemoveEmpty, synchAll_lib]
  rfl

theorem rowPath?_job (hfile : file ∈ (dtControlDeleteImagesJobRun conf o w ids).lib.rows) :
    (dtControlDeleteImagesJobRun conf o w ids).lib.rowPath? file = w.lib.rowPath? file := by
  rw [rows_job] at hfile
  simp only [dtControlDeleteImagesJobRun, World.dtFilmRemoveEmpty, synchAll_lib]
  rw [rowPath?_dtFilmRemoveEmpty hfile, rowPath?_congr (filmRolls_foldl_deleteStep _ ids)]
  rfl

/-- What follows the loop writes sidecars and removes no file. -/
theorem spared_job_iff : Spared file filename (dtControlDeleteImagesJobRun conf o w ids) ↔
    Spared file filename (ids.foldl (deleteStep conf o) (deleteStart w)).world := by
  have hquiet : World.Quiet (fun _ => False) (ids.foldl (deleteStep conf o) (deleteStart w)).world
      (synchAll conf o (ids.foldl (deleteStep conf o) (deleteStart w)).world
        (getFullPathname w (getImageList ids))) := quiet_synchAll _ _
  have hremoved : ∀ p, p ∈ (dtControlDeleteImagesJobRun conf o w ids).disk.removed ↔
      p ∈ (ids.foldl (deleteStep conf o) (deleteStart w)).world.disk.removed :=
    fun p => ⟨fun hp => (hquiet.removed p hp).resolve_right id, hquiet.grows p⟩
  rw [Spared, Spared, hremoved, hremoved]

theorem sparesRemaining_job_iff : SparesRemaining (dtControlDeleteImagesJobRun conf o w ids) ↔
    ∀ file ∈ (dtControlDeleteImagesJobRun conf o w ids).lib.rows,
      ∀ filename ∈ w.lib.rowPath? file,
        Spared file filename (ids.foldl (deleteStep conf o) (deleteStart w)).world := by
  refine forall₂_congr fun file hfile => ?_
  rw [rowPath?_job hfile]
  exact forall₂_congr fun filename hpath => spared_job_iff

theorem spared_deleteStart (hstart : w.disk.removed = []) :
    Spared file filename (deleteStart w).world := by
  rw [Spared, deleteStart, hstart]
  exact ⟨not_mem_nil, not_mem_nil⟩

section Image

variable (hfolders : w.lib.DistinctFolders) (hstart : w.disk.removed = [])
  (hpath : w.lib.rowPath? file = some filename)
include hfolders hpath

theorem spared_deleteStep_of_safe {s : DeleteState} {imgid : Nat}
    (hrolls : s.world.lib.filmRolls = w.lib.filmRolls)
    (hspared : file ∈ s.world.lib.rows → Spared file filename s.world)
    (hsafe : s.Safe conf o file filename imgid)
    (hleft : file ∈ (deleteStep conf o s imgid).world.lib.rows) :
    Spared file filename (deleteStep conf o s imgid).world := by
  cases hstop : s.stopped with
  | true =>
    rw [deleteStep_of_stopped hstop] at hleft ⊢
    exact hspared hleft
  | false =>
    have hfile : file ∈ s.world.lib.rows := ((mem_rows_deleteStep hstop).1 hleft).1
    refine spared_deleteStep ?_ ?_ (hspared hfile) hstop hleft (hsafe hstop hfile)
    · rwa [DistinctFolders, hrolls]
    · rwa [rowPath?_congr hrolls]

theorem spared_deleteStep_iff_safe (ho : o.AlwaysSucceed) {s : DeleteState} {imgid : Nat}
    (hrolls : s.world.lib.filmRolls = w.lib.filmRolls)
    (hspared : file ∈ s.world.lib.rows → Spared file filename s.world) :
    (file ∈ (deleteStep conf o s imgid).world.lib.rows →
      Spared file filename (deleteStep conf o s imgid).world) ↔
      s.Safe conf o file filename imgid := by
  constructor
  · intro h hstop hfile
    refine deleteSafe_of_spared ho hfile ?_ hstop h
    rwa [rowPath?_congr hrolls]
  · exact spared_deleteStep_of_safe hfolders hpath hrolls hspared

include hstart

theorem spared_run_of_allSteps_safe
    (hsafe : AllSteps (deleteStep conf o) (DeleteState.Safe conf o file filename) (deleteStart w)
      ids)
    (hleft : file ∈ (ids.foldl (deleteStep conf o) (deleteStart w)).world.lib.rows) :
    Spared file filename (ids.foldl (deleteStep conf o) (deleteStart w)).world := by
  have hrun : AllStates (deleteStep conf o) (fun s => s.world.lib.filmRolls = w.lib.filmRolls ∧
      (file ∈ s.world.lib.rows → Spared file filename s.world)) (deleteStart w) ids := by
    refine allStates_of_allSteps ?_ ⟨rfl, fun _ => spared_deleteStart hstart⟩ hsafe
    rintro s imgid ⟨hrolls, hspared⟩ hsafe
    exact ⟨filmRolls_deleteStep.trans hrolls,
      spared_deleteStep_of_safe hfolders hpath hrolls hspared hsafe⟩
  exact hrun.last.2 hleft

theorem allSteps_safe_of_spared_run (ho : o.AlwaysSucceed)
    (hspared : Spared file filename (ids.foldl (deleteStep conf o) (deleteStart w)).world) :
    AllSteps (deleteStep conf o) (DeleteState.Safe conf o file filename) (deleteStart w) ids := by
  -- a removed file stays removed, so what is spared at the end is spared all along
  have hall : AllStates (deleteStep conf o) (fun s => Spared file filename s.world)
      (deleteStart w) ids :=
    AllStates.of_last (fun s imgid h => ⟨fun hp => h.1 (removed_subset_deleteStep hp),
      fun hp => h.2 (removed_subset_deleteStep hp)⟩) hspared
  have haux : ∀ (s : DeleteState) (imgid : Nat), s.world.lib.filmRolls = w.lib.filmRolls →
      (deleteStep conf o s imgid).world.lib.filmRolls = w.lib.filmRolls :=
    fun s imgid => filmRolls_deleteStep.trans
  exact (allStates_iff_allSteps_of_aux haux
    (fun s imgid => spared_deleteStep_iff_safe hfolders hpath ho)
    rfl fun _ => spared_deleteStart hstart).1
    (hall.mono fun s h (_ : file ∈ s.world.lib.rows) => h)

end Image

end Run

/-- At the end of the delete job no removed file is the source or the sidecar of an image that is
still in the library, if the steps are safe for these images; and where everything succeeds, only
then. -/
theorem deleteImages_spares_remaining (conf : Conf) (o : Outcomes) (w : World) (ids : List Nat)
    (hfolders : w.lib.DistinctFolders) (hstart : w.disk.removed = []) :
    (StepsSafe conf o w ids → SparesRemaining (dtControlDeleteImagesJobRun conf o w ids)) ∧
      (o.AlwaysSucceed → SparesRemaining (dtControlDeleteImagesJobRun conf o w ids) →
        StepsSafe conf o w ids) := by
  rw [sparesRemaining_job_iff]
  constructor
  · intro hsafe file hfile filename hpath
    have hleft := hfile
    rw [rows_job] at hleft
    exact spared_run_of_allSteps_safe hfolders hstart hpath (hsafe file hfile filename hpath) hleft
  · intro ho hspared file hfile filename hpath
    exact allSteps_safe_of_spared_run hfolders hstart hpath ho (hspared file hfile filename hpath)

-- Two images, of which the second is named like a duplicate of the first.
def numberedWorld : World :=
  sampleWorld [sampleA false, sampleImage 2 "A_01.raw" false (by decide)] (by decide)
    ["/p/A.raw", "/p/A.raw.xmp", "/p/A_01.raw", "/p/A_01.raw.xmp"]

theorem deleteImages_spares_remaining_numbered :
    numberedWorld.lib.DistinctFolders ∧ numberedWorld.disk.removed = [] ∧
      StepsSafe sampleConf allSucceed numberedWorld [2] ∧
      SparesRemaining (dtControlDeleteImagesJobRun sampleConf allSucceed numberedWorld [2]) :=
  ⟨by decide, rfl, by decide, (deleteImages_spares_remaining sampleConf allSucceed numberedWorld [2]
    (by decide) rfl).1 (by decide)⟩

theorem deleteImages_takes_foreign_sidecar :
    numberedWorld.lib.DistinctFolders ∧ numberedWorld.disk.removed = [] ∧
      "/p/A_01.raw.xmp".toList ∈
        (dtControlDeleteImagesJobRun sampleConf allSucceed numberedWorld [1]).disk.removed ∧
      ¬ SparesRemaining (dtControlDeleteImagesJobRun sampleConf allSucceed numberedWorld [1]) := by
  decide

end DTLite
