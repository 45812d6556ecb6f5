import DTLite.Common.Image
import DTLite.Reasoning.Table

/-! What the functions of `common/image.c` do to the library and to the disk, said once: which rows
they keep and which files they may take away. -/

namespace DTLite

open Reasoning Library List

namespace Library

variable {lib lib' : Library} {imgid : Nat} {img : Image}

def rows (lib : Library) : List ImageFile := lib.images.map Image.toImageFile

@[simp] theorem rows_update (u : RowUpdate) : (lib.update imgid u).rows = lib.rows := by
  rw [rows, update, map_map]
  refine congrArg (lib.images.map ·) (funext fun img => ?_)
  rw [Function.comp_apply]
  split
  · exact u.set_file img
  · rfl

@[simp] theorem rows_delete : (lib.delete imgid).rows = lib.rows.filter (·.id ≠ imgid) := by
  rw [rows, rows, filter_map]
  rfl

theorem mem_images_delete :
    img ∈ (lib.delete imgid).images ↔ img ∈ lib.images ∧ img.id ≠ imgid := by
  simp [delete]

theorem image?_eq_some_iff : lib.image? imgid = some img ↔ img ∈ lib.images ∧ img.id = imgid :=
  find?_key_eq_some_iff lib.images_nodup

theorem filmRoll?_eq_some_iff {filmId : Nat} {roll : FilmRoll} :
    lib.filmRoll? filmId = some roll ↔ roll ∈ lib.filmRolls ∧ roll.id = filmId :=
  find?_key_eq_some_iff lib.filmRolls_nodup

theorem image?_eq_none_iff : lib.image? imgid = none ↔ ∀ img ∈ lib.images, img.id ≠ imgid := by
  simp [image?]

theorem image?_eq_none_iff_rows : lib.image? imgid = none ↔ ∀ file ∈ lib.rows, file.id ≠ imgid := by
  rw [image?_eq_none_iff, rows, forall_mem_map]

theorem isSome_image?_iff_rows :
    (lib.image? imgid).isSome = true ↔ ∃ file ∈ lib.rows, file.id = imgid := by
  rw [← not_iff_not, Option.not_isSome_iff_eq_none, image?_eq_none_iff_rows]
  simp

theorem image?_delete_self : (lib.delete imgid).image? imgid = none := by
  rw [image?_eq_none_iff]
  intro img hmem
  exact (mem_images_delete.1 hmem).2

theorem image?_update (u : RowUpdate) (other : Nat) :
    (lib.update imgid u).image? other =
      (lib.image? other).map fun img => if img.id = imgid then u.set img else img := by
  rw [image?, update, find?_map]
  refine congrArg (Option.map _) (congrArg (lib.images.find? ·) (funext fun img => ?_))
  rw [Function.comp_apply]
  split
  · rw [u.set_file]
  · rfl

theorem file_image? : (lib.image? imgid).map Image.toImageFile = lib.rows.find? (·.id = imgid) := by
  rw [rows, find?_map]
  rfl

theorem path?_eq : lib.path? imgid = (lib.rows.find? (·.id = imgid)).bind lib.rowPath? := by
  rw [← file_image?, Option.bind_map]
  rfl

section Congr

variable (hrows : lib'.rows = lib.rows)
include hrows

theorem dtImagePathAppendVersion_congr (pathname : Path) :
    dtImagePathAppendVersion lib' imgid pathname = dtImagePathAppendVersion lib imgid pathname := by
  have hversion : ∀ l : Library, (l.image? imgid).map (·.version) =
      (l.rows.find? (·.id = imgid)).map ImageFile.version := by
    intro l
    rw [← file_image?, Option.map_map]
    rfl
  rw [dtImagePathAppendVersion, dtImagePathAppendVersion, hversion, hversion, hrows]

theorem isSome_image?_congr : (lib'.image? imgid).isSome = (lib.image? imgid).isSome := by
  have hsome : ∀ l : Library, (l.image? imgid).isSome = (l.rows.find? (·.id = imgid)).isSome := by
    intro l
    rw [← file_image?, Option.isSome_map]
  rw [hsome, hsome, hrows]

end Congr

theorem rowPath?_congr (hrolls : lib'.filmRolls = lib.filmRolls) :
    lib'.rowPath? = lib.rowPath? := by
  funext file
  rw [rowPath?, rowPath?, filmRoll?, filmRoll?, hrolls]

theorem path?_congr (hrows : lib'.rows = lib.rows) (hrolls : lib'.filmRolls = lib.filmRolls) :
    lib'.path? imgid = lib.path? imgid := by
  rw [path?_eq, path?_eq, hrows, rowPath?_congr hrolls]

end Library

namespace World

variable {conf : Conf} {o : Outcomes} {w w' w'' : World} {imgid : Nat} {lost lost' : Path → Prop}

/-- Rows keep their keys, files and versions, no dialog is opened, no deletion tried, and the only
files taken away are among `lost`. -/
structure Quiet (lost : Path → Prop) (w w' : World) : Prop where
  rows : w'.lib.rows = w.lib.rows
  filmRolls : w'.lib.filmRolls = w.lib.filmRolls
  attempts : w'.attempts = w.attempts
  asked : w'.asked = w.asked
  kept : ∀ p ∈ w.disk.files, p ∈ w'.disk.files ∨ lost p
  removed : ∀ p ∈ w'.disk.removed, p ∈ w.disk.removed ∨ lost p
  grows : ∀ p ∈ w.disk.removed, p ∈ w'.disk.removed

namespace Quiet

theorem refl (lost : Path → Prop) (w : World) : Quiet lost w w where
  rows := rfl
  filmRolls := rfl
  attempts := rfl
  asked := rfl
  kept _ hp := Or.inl hp
  removed _ hp := Or.inl hp
  grows _ hp := hp

theorem trans (h : Quiet lost w w') (h' : Quiet lost w' w'') : Quiet lost w w'' where
  rows := h'.rows.trans h.rows
  filmRolls := h'.filmRolls.trans h.filmRolls
  attempts := h'.attempts.trans h.attempts
  asked := h'.asked.trans h.asked
  kept p hp := (h.kept p hp).elim (h'.kept p) Or.inr
  removed p hp := (h'.removed p hp).elim (h.removed p) Or.inr
  grows p hp := h'.grows p (h.grows p hp)

theorem mono (hle : ∀ p, lost p → lost' p) (h : Quiet lost w w') : Quiet lost' w w' where
  __ := h
  kept p hp := (h.kept p hp).imp_right (hle p)
  removed p hp := (h.removed p hp).imp_right (hle p)

theorem path? (h : Quiet lost w w') : w'.lib.path? imgid = w.lib.path? imgid :=
  path?_congr h.rows h.filmRolls

theorem foldl {f : World → Nat → World} (hf : ∀ w i, Quiet lost w (f w i)) (ids : List Nat)
    (w : World) : Quiet lost w (ids.foldl f w) := by
  induction ids generalizing w with
  | nil => exact refl lost w
  | cons i ids ih => exact (hf w i).trans (ih (f w i))

end Quiet

theorem quiet_writeFile (lost : Path → Prop) (w : World) (path : Path) :
    Quiet lost w (w.writeFile o path) where
  rows := rfl
  filmRolls := rfl
  attempts := rfl
  asked := rfl
  kept p hp := Or.inl (by simp [writeFile, hp])
  removed p hp := Or.inl (by simpa [writeFile] using hp)
  grows p hp := by simpa [writeFile] using hp

theorem quiet_deleteFile (w : World) (path : Path) : Quiet (· = path) w (w.deleteFile o path) where
  rows := rfl
  filmRolls := rfl
  attempts := rfl
  asked := rfl
  kept p hp := by
    simp only [deleteFile, Disk.mem_remove]
    tauto
  removed p hp := by
    simp only [deleteFile, Disk.mem_removed_remove] at hp
    tauto
  grows p hp := by
    rw [deleteFile, Disk.mem_removed_remove]
    exact Or.inl hp

section

variable (lost : Path → Prop)

theorem quiet_updateRow (w : World) (imgid : Nat) (u : RowUpdate) :
    Quiet lost w (w.updateRow imgid u) where
  rows := rows_update u
  filmRolls := rfl
  attempts := rfl
  asked := rfl
  kept _ hp := Or.inl hp
  removed _ hp := Or.inl hp
  grows _ hp := hp

theorem quiet_dtImageWriteSidecarFile (w : World) (imgid : Nat) :
    Quiet lost w (w.dtImageWriteSidecarFile conf o imgid) := by
  simp only [dtImageWriteSidecarFile]
  split_ifs
  · exact quiet_writeFile lost w _
  · exact quiet_writeFile lost w _
  · exact Quiet.refl lost w
  · exact Quiet.refl lost w

theorem quiet_dtImageSynchAllXmp (w : World) (pathname : Path) :
    Quiet lost w (w.dtImageSynchAllXmp conf o pathname) := by
  rw [dtImageSynchAllXmp]
  split
  · exact Quiet.foldl (quiet_dtImageWriteSidecarFile lost) _ w
  · exact Quiet.refl lost w

end

@[simp] theorem dtImageWriteSidecarFile_lib (w : World) (imgid : Nat) :
    (w.dtImageWriteSidecarFile conf o imgid).lib = w.lib := by
  simp only [dtImageWriteSidecarFile]
  split_ifs <;> rfl

theorem quiet_dtGroupingRemoveFromGroup (lost : Path → Prop) (w : World) (imgid : Nat) :
    Quiet lost w (w.dtGroupingRemoveFromGroup conf o imgid) := by
  have hregroup : ∀ (groupId : Nat) (w : World) (other : Nat), Quiet lost w
      ((w.updateRow other (.groupId groupId)).dtImageWriteSidecarFile conf o other) :=
    fun groupId w other => (quiet_updateRow lost w other _).trans
      (quiet_dtImageWriteSidecarFile lost _ other)
  rw [dtGroupingRemoveFromGroup]
  split
  · exact Quiet.refl lost w
  · split_ifs
    · exact Quiet.foldl (hregroup _) _ w
    · exact hregroup imgid w imgid

def localCopyXmp (conf : Conf) (w : World) (imgid : Nat) : Path :=
  dtImagePathAppendVersion w.lib imgid (w.imageLocalCopyFullPath conf imgid) ++ xmpExt

/-- The files `dt_image_local_copy_reset` deletes, if it goes on and the system lets it: the cached
copy, unless another image uses it, and the sidecar next to it, which the synchronisation that comes
first may have just written. -/
def cacheFiles (conf : Conf) (o : Outcomes) (w : World) (imgid : Nat) : List Path :=
  let locppath := w.imageLocalCopyFullPath conf imgid
  let locpxmp := w.localCopyXmp conf imgid
  if w.hasLocalCopyFlag imgid ∧ w.localCopyResetRefused conf imgid = false ∧
      w.exists? locppath ∧ conf.userCacheDir <:+: locppath then
    (if w.lib.nbOtherLocalCopyFor imgid = 0 then [locppath] else []) ++
      (if (w.dtImageWriteSidecarFile conf o imgid).exists? locpxmp then [locpxmp] else [])
  else []

-- The same two files, whether or not the reset gets to them.
structure CacheFile (conf : Conf) (o : Outcomes) (w : World) (imgid : Nat) (p : Path) : Prop where
  copy : w.exists? (w.imageLocalCopyFullPath conf imgid) = true
  cached : conf.userCacheDir <:+: w.imageLocalCopyFullPath conf imgid
  which : (p = w.imageLocalCopyFullPath conf imgid ∧ w.lib.nbOtherLocalCopyFor imgid = 0) ∨
    (p = w.localCopyXmp conf imgid ∧ p ∈ (w.dtImageWriteSidecarFile conf o imgid).disk.files)

theorem mem_cacheFiles {p : Path} : p ∈ w.cacheFiles conf o imgid ↔
    w.hasLocalCopyFlag imgid = true ∧ w.localCopyResetRefused conf imgid = false ∧
      CacheFile conf o w imgid p := by
  simp only [cacheFiles]
  split
  · rename_i h
    obtain ⟨hflag, hrefused, hcopy, hcached⟩ := h
    have hwhich : CacheFile conf o w imgid p ↔ _ := ⟨CacheFile.which, CacheFile.mk hcopy hcached⟩
    rw [hwhich, and_iff_right hflag, and_iff_right hrefused, mem_append]
    refine or_congr ?_ ?_
    · split <;> simp [*]
    · split
      · rename_i hexists
        rw [mem_singleton, iff_self_and]
        rintro rfl
        simpa [exists?] using hexists
      · rename_i hmissing
        simp only [not_mem_nil, false_iff, not_and]
        rintro rfl
        simpa [exists?] using hmissing
  · rename_i h
    simp only [not_mem_nil, false_iff]
    exact fun hp => h ⟨hp.1, hp.2.1, hp.2.2.copy, hp.2.2.cached⟩

theorem quiet_deleteCachedFile (w : World) (imgid : Nat) (locppath : Path) :
    Quiet (fun p => p = locppath ∧ w.lib.nbOtherLocalCopyFor imgid = 0) w
      (w.deleteCachedFile o imgid locppath) := by
  rw [deleteCachedFile]
  split
  · rename_i hother
    exact (quiet_deleteFile w locppath).mono fun p hp => ⟨hp, hother⟩
  · exact Quiet.refl _ w

theorem quiet_deleteCachedXmp (w : World) (imgid : Nat) (locppath : Path) :
    Quiet (fun p => p = dtImagePathAppendVersion w.lib imgid locppath ++ xmpExt ∧
      p ∈ w.disk.files) w (w.deleteCachedXmp o imgid locppath) := by
  simp only [deleteCachedXmp]
  split
  · rename_i hexists
    refine (quiet_deleteFile w _).mono ?_
    rintro p rfl
    exact ⟨rfl, by simpa [exists?] using hexists⟩
  · exact Quiet.refl _ w

@[simp] theorem deleteCachedFile_lib (w : World) (imgid : Nat) (locppath : Path) :
    (w.deleteCachedFile o imgid locppath).lib = w.lib := by
  rw [deleteCachedFile]
  split <;> rfl

theorem mem_of_mem_deleteCachedFile {locppath p : Path}
    (hp : p ∈ (w.deleteCachedFile o imgid locppath).disk.files) : p ∈ w.disk.files := by
  rw [deleteCachedFile] at hp
  split at hp
  · rw [deleteFile, Disk.mem_remove] at hp
    exact hp.1
  · exact hp

theorem mem_or_removed_deleteCachedFile {locppath p : Path} (hp : p ∈ w.disk.files) :
    p ∈ (w.deleteCachedFile o imgid locppath).disk.files ∨
      p ∈ (w.deleteCachedFile o imgid locppath).disk.removed := by
  rw [deleteCachedFile]
  split
  · rw [deleteFile, Disk.mem_remove, Disk.mem_removed_remove]
    by_cases hdeleted : o.fileOp w.fileOps = true ∧ p = locppath
    · exact Or.inr (Or.inr ⟨hdeleted.1, hdeleted.2 ▸ hp, hdeleted.2⟩)
    · exact Or.inl ⟨hp, hdeleted⟩
  · exact Or.inl hp

theorem quiet_localCopyDelete (w : World) (imgid : Nat) :
    Quiet (CacheFile conf o w imgid) w (w.localCopyDelete conf o imgid) := by
  simp only [localCopyDelete]
  split
  · rename_i hcached
    refine ((quiet_dtImageWriteSidecarFile _ w imgid).trans
      ((quiet_deleteCachedFile _ imgid _).mono fun p hp => ?_)).trans
      ((quiet_deleteCachedXmp _ imgid _).mono fun p hp => ?_)
    · rw [dtImageWriteSidecarFile_lib] at hp
      exact ⟨hcached.1, hcached.2, Or.inl hp⟩
    · rw [deleteCachedFile_lib, dtImageWriteSidecarFile_lib] at hp
      exact ⟨hcached.1, hcached.2, Or.inr ⟨hp.1, mem_of_mem_deleteCachedFile hp.2⟩⟩
  · exact Quiet.refl _ w

section Reset

variable (hflag : w.hasLocalCopyFlag imgid = true)

theorem reset_of_no_flag (h : w.hasLocalCopyFlag imgid = false) :
    w.dtImageLocalCopyReset conf o imgid = (w, false) := by
  simp [dtImageLocalCopyReset, h]

include hflag

theorem reset_of_refused (h : w.localCopyResetRefused conf imgid = true) :
    w.dtImageLocalCopyReset conf o imgid = (w, true) := by
  simp [dtImageLocalCopyReset, hflag, h]

theorem reset_of_not_refused (h : w.localCopyResetRefused conf imgid = false) :
    w.dtImageLocalCopyReset conf o imgid =
      ((w.localCopyDelete conf o imgid).updateRow imgid (.localCopy false), false) := by
  simp [dtImageLocalCopyReset, hflag, h]

end Reset

theorem quiet_dtImageLocalCopyReset (w : World) (imgid : Nat) :
    Quiet (· ∈ w.cacheFiles conf o imgid) w (w.dtImageLocalCopyReset conf o imgid).1 := by
  cases hflag : w.hasLocalCopyFlag imgid with
  | false =>
    rw [reset_of_no_flag hflag]
    exact Quiet.refl _ w
  | true =>
    cases hrefused : w.localCopyResetRefused conf imgid with
    | true =>
      rw [reset_of_refused hflag hrefused]
      exact Quiet.refl _ w
    | false =>
      rw [reset_of_not_refused hflag hrefused]
      refine ((quiet_localCopyDelete w imgid).trans (quiet_updateRow _ _ imgid _)).mono ?_
      exact fun p hp => mem_cacheFiles.2 ⟨hflag, hrefused, hp⟩

section Succeeds

-- Where no call fails, what may be deleted is deleted.
variable {p : Path} (ho : ∀ n, o.fileOp n = true)
include ho

theorem mem_removed_deleteFile {path : Path} (hp : path ∈ w.disk.files) :
    path ∈ (w.deleteFile o path).disk.removed := by
  rw [deleteFile, Disk.mem_removed_remove]
  exact Or.inr ⟨ho _, hp, rfl⟩

theorem mem_removed_localCopyDelete (hp : CacheFile conf o w imgid p) :
    p ∈ (w.localCopyDelete conf o imgid).disk.removed := by
  simp only [localCopyDelete]
  rw [if_pos ⟨hp.copy, hp.cached⟩]
  obtain ⟨rfl, hnb⟩ | ⟨rfl, hxmp⟩ := hp.which
  · have hcopy : w.imageLocalCopyFullPath conf imgid ∈
        (w.dtImageWriteSidecarFile conf o imgid).disk.files :=
      ((quiet_dtImageWriteSidecarFile (fun _ => False) w imgid).kept _
        (by simpa [exists?] using hp.copy)).resolve_right id
    refine (quiet_deleteCachedXmp _ imgid _).grows _ ?_
    rw [deleteCachedFile, dtImageWriteSidecarFile_lib, if_pos hnb]
    exact mem_removed_deleteFile ho hcopy
  · -- should the sidecar pass for the copy, then it is gone one call earlier
    have hnext : _ ∈ ((w.dtImageWriteSidecarFile conf o imgid).deleteCachedFile o imgid
        (w.imageLocalCopyFullPath conf imgid)).disk.files ∨ _ :=
      mem_or_removed_deleteCachedFile hxmp
    obtain hfile | hgone := hnext
    · rw [deleteCachedXmp, deleteCachedFile_lib, dtImageWriteSidecarFile_lib, ← localCopyXmp,
        exists?, if_pos (by simpa using hfile)]
      exact mem_removed_deleteFile ho hfile
    · exact (quiet_deleteCachedXmp _ imgid _).grows _ hgone

theorem mem_removed_dtImageLocalCopyReset (hp : p ∈ w.cacheFiles conf o imgid) :
    p ∈ (w.dtImageLocalCopyReset conf o imgid).1.disk.removed := by
  obtain ⟨hflag, hrefused, hcache⟩ := mem_cacheFiles.1 hp
  rw [reset_of_not_refused hflag hrefused]
  exact mem_removed_localCopyDelete ho hcache

end Succeeds

section SameDisk

theorem exists?_congr (hdisk : w'.disk = w.disk) : w'.exists? = w.exists? := by
  funext path
  rw [exists?, exists?, hdisk]

-- What is on disk and the rows decide every path.
variable (hquiet : Quiet lost w w') (hdisk : w'.disk = w.disk)
include hquiet hdisk

theorem imageLocalCopyFullPath_congr :
    w'.imageLocalCopyFullPath conf imgid = w.imageLocalCopyFullPath conf imgid := by
  rw [imageLocalCopyFullPath, imageLocalCopyFullPath, hquiet.path?, exists?_congr hdisk]

theorem localCopyXmp_congr : w'.localCopyXmp conf imgid = w.localCopyXmp conf imgid := by
  rw [localCopyXmp, localCopyXmp, dtImagePathAppendVersion_congr hquiet.rows,
    imageLocalCopyFullPath_congr hquiet hdisk]

theorem dtImageFullPath_congr (fromCache : Bool) :
    w'.dtImageFullPath conf imgid fromCache = w.dtImageFullPath conf imgid fromCache := by
  simp only [dtImageFullPath, hquiet.path?, imageLocalCopyFullPath_congr hquiet hdisk,
    exists?_congr hdisk]

theorem localCopyResetRefused_congr :
    w'.localCopyResetRefused conf imgid = w.localCopyResetRefused conf imgid := by
  simp only [localCopyResetRefused, dtImageFullPath_congr hquiet hdisk,
    dtImagePathAppendVersion_congr hquiet.rows, exists?_congr hdisk]

theorem dtImageWriteSidecarFile_disk_congr (hops : w'.fileOps = w.fileOps) :
    (w'.dtImageWriteSidecarFile conf o imgid).disk =
      (w.dtImageWriteSidecarFile conf o imgid).disk := by
  simp only [dtImageWriteSidecarFile, dtImageFullPath_congr hquiet hdisk, exists?_congr hdisk,
    dtImagePathAppendVersion_congr hquiet.rows]
  split_ifs <;> simp only [writeFile, hdisk, hops]

end SameDisk

def resetRefuses (conf : Conf) (w : World) (imgid : Nat) : Bool :=
  w.hasLocalCopyFlag imgid && w.localCopyResetRefused conf imgid

theorem hasLocalCopyFlag_iff :
    w.hasLocalCopyFlag imgid = true ↔
      ∃ img ∈ w.lib.images, img.id = imgid ∧ img.localCopy = true := by
  rw [hasLocalCopyFlag]
  constructor
  · intro h
    cases himg : w.lib.image? imgid with
    | none => simp [himg] at h
    | some img =>
      obtain ⟨hmem, hid⟩ := image?_eq_some_iff.1 himg
      exact ⟨img, hmem, hid, by simpa [himg] using h⟩
  · rintro ⟨img, hmem, hid, hflag⟩
    rw [image?_eq_some_iff.2 ⟨hmem, hid⟩]
    exact hflag

theorem dtImageLocalCopyReset_snd (w : World) (imgid : Nat) :
    (w.dtImageLocalCopyReset conf o imgid).2 = w.resetRefuses conf imgid := by
  simp only [dtImageLocalCopyReset, resetRefuses]
  cases w.hasLocalCopyFlag imgid <;> cases w.localCopyResetRefused conf imgid <;> rfl

theorem dtImageRemove_of_refused (h : w.resetRefuses conf imgid = true) :
    w.dtImageRemove conf o imgid = w := by
  rw [resetRefuses, Bool.and_eq_true] at h
  rw [dtImageRemove, reset_of_refused h.1 h.2]

theorem reset_eq_of_not_refuses (h : w.resetRefuses conf imgid = false) :
    w.dtImageLocalCopyReset conf o imgid = ((w.dtImageLocalCopyReset conf o imgid).1, false) := by
  rw [← h, ← dtImageLocalCopyReset_snd (o := o)]

/-- A removal that is not refused takes the row away and, beside that, does what a reset may do. -/
theorem dtImageRemove_of_not_refused (h : w.resetRefuses conf imgid = false) :
    ∃ w', Quiet (· ∈ w.cacheFiles conf o imgid) w w' ∧
      w.dtImageRemove conf o imgid = { w' with lib := w'.lib.delete imgid } := by
  refine ⟨(w.dtImageLocalCopyReset conf o imgid).1.dtGroupingRemoveFromGroup conf o imgid, ?_, ?_⟩
  · exact (quiet_dtImageLocalCopyReset w imgid).trans (quiet_dtGroupingRemoveFromGroup _ _ imgid)
  · rw [dtImageRemove, reset_eq_of_not_refuses h]

theorem removed_subset_dtImageRemove {p : Path} (hp : p ∈ w.disk.removed) :
    p ∈ (w.dtImageRemove conf o imgid).disk.removed := by
  cases h : w.resetRefuses conf imgid with
  | true => rwa [dtImageRemove_of_refused h]
  | false =>
    obtain ⟨w', hquiet, heq⟩ := dtImageRemove_of_not_refused (o := o) h
    rw [heq]
    exact hquiet.grows p hp

theorem mem_removed_dtImageRemove {p : Path} (ho : ∀ n, o.fileOp n = true)
    (hp : p ∈ w.cacheFiles conf o imgid) : p ∈ (w.dtImageRemove conf o imgid).disk.removed := by
  have h : w.resetRefuses conf imgid = false := by
    rw [resetRefuses, (mem_cacheFiles.1 hp).2.1, Bool.and_false]
  rw [dtImageRemove, reset_eq_of_not_refuses h]
  exact (quiet_dtGroupingRemoveFromGroup (fun _ => False) _ imgid).grows p
    (mem_removed_dtImageLocalCopyReset ho hp)

theorem dtImageRemove_of_missing (h : w.lib.image? imgid = none) :
    w.dtImageRemove conf o imgid = w := by
  have hflag : w.hasLocalCopyFlag imgid = false := by
    rw [hasLocalCopyFlag, h]
    rfl
  have hgroup : w.dtGroupingRemoveFromGroup conf o imgid = w := by
    rw [dtGroupingRemoveFromGroup, h]
  have hdelete : w.lib.delete imgid = w.lib := by
    have hall := image?_eq_none_iff.1 h
    rw [delete]
    congr
    exact filter_eq_self.2 fun img hmem => by simpa using hall img hmem
  rw [dtImageRemove, reset_of_no_flag hflag]
  simp only [hgroup, hdelete]

theorem rows_dtImageRemove (w : World) (imgid : Nat) :
    (w.dtImageRemove conf o imgid).lib.rows = w.lib.rows ∧ w.resetRefuses conf imgid = true ∨
      (w.dtImageRemove conf o imgid).lib.rows = w.lib.rows.filter (·.id ≠ imgid) ∧
        w.resetRefuses conf imgid = false := by
  cases h : w.resetRefuses conf imgid with
  | true => exact Or.inl ⟨by rw [dtImageRemove_of_refused h], rfl⟩
  | false =>
    obtain ⟨w', hquiet, heq⟩ := dtImageRemove_of_not_refused (o := o) h
    refine Or.inr ⟨?_, rfl⟩
    rw [heq, rows_delete, hquiet.rows]

end World

end DTLite
