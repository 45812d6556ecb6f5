import DTLite.Common.ImageEffects

/-! The id list of `control/jobs/control_jobs.c`: `_get_image_list` prints the ids into one text,
and `_set_remove_flag` and `_get_full_pathname` bind that text to `id IN (?)`. -/

namespace DTLite

open Reasoning List World Library

section Text

-- `snprintf(num, sizeof(num), "%s%6d", ...)` into `char num[8]`.
def listNum (first : Bool) (imgid : Nat) : List Char :=
  ((if first then [] else [',']) ++ printPadded ' ' 6 imgid).take 7

-- `g_strlcat(buffer, num, size)`.
def strlcat (buffer num : List Char) (size : Nat) : List Char := (buffer ++ num).take (size - 1)

def getImageList (l : List Nat) : List Char :=
  (l.foldl (fun (s : List Char × Bool) imgid =>
    (strlcat s.1 (listNum s.2 imgid) (8 * l.length), false)) ([], true)).1

-- The one id that `id IN (?)` can match with the text bound as a single value. The texts are made
-- of blanks, digits and commas only, so signs, points and exponents need no reading here.
def boundId (imgs : List Char) : Option Nat := numeral? imgs

-- The id the text of a single image stands for: the number its first seven digits write.
def shownId (imgid : Nat) : Nat := Nat.ofDigitChars 10 ((Nat.toDigits 10 imgid).take 7) 0

theorem length_listNum_le (first : Bool) (imgid : Nat) : (listNum first imgid).length ≤ 7 :=
  length_take_le _ _

-- The text as long as the buffer is large enough.
def listText : Bool → List Nat → List Char
  | _, [] => []
  | first, imgid :: l => listNum first imgid ++ listText false l

theorem foldl_strlcat (size : Nat) (buffer : List Char) (first : Bool) (l : List Nat)
    (hsize : buffer.length + 7 * l.length ≤ size - 1) :
    (l.foldl (fun (s : List Char × Bool) imgid => (strlcat s.1 (listNum s.2 imgid) size, false))
      (buffer, first)).1 = buffer ++ listText first l := by
  induction l generalizing buffer first with
  | nil => simp [listText]
  | cons imgid l ih =>
    have hnum := length_listNum_le first imgid
    have hfits : strlcat buffer (listNum first imgid) size = buffer ++ listNum first imgid := by
      apply take_of_length_le
      rw [length_append]
      rw [length_cons] at hsize
      omega
    rw [foldl_cons]
    simp only [hfits]
    rw [ih]
    · rw [listText, append_assoc]
    · rw [length_append]
      rw [length_cons] at hsize
      omega

theorem getImageList_eq (l : List Nat) : getImageList l = listText true l := by
  cases l with
  | nil => rfl
  | cons imgid l =>
    rw [getImageList, foldl_strlcat, nil_append]
    rw [length_nil]
    omega

theorem listNum_true_eq (imgid : Nat) :
    listNum true imgid = replicate (6 - (Nat.toDigits 10 imgid).length) ' ' ++
      (Nat.toDigits 10 imgid).take 7 := by
  simp only [listNum, if_true, nil_append, printPadded_eq, take_append,
    length_replicate, take_replicate]
  obtain hshort | hlong := Nat.le_total (Nat.toDigits 10 imgid).length 6
  · rw [take_of_length_le, take_of_length_le, min_eq_right]
    all_goals omega
  · rw [Nat.sub_eq_zero_of_le hlong]
    rfl

theorem boundId_singleton (imgid : Nat) :
    boundId (getImageList [imgid]) = some (shownId imgid) := by
  rw [boundId, getImageList_eq, listText, listText, append_nil, listNum_true_eq,
    numeral?_blanks_append, shownId]
  · simp
  · intro c hc
    exact Nat.isDigit_of_mem_toDigits (by decide) (by decide) (mem_of_mem_take hc)

theorem boundId_eq_none {l : List Nat} (h : l.length ≠ 1) : boundId (getImageList l) = none := by
  match l with
  | [] => decide
  | [imgid] => exact absurd rfl h
  | imgid :: imgid' :: l =>
    rw [getImageList_eq]
    refine numeral?_eq_none_of_mem (c := ',') ?_ (by decide) (by decide)
    simp [listText, listNum]

end Text

section Statements

variable (w : World) (imgs : List Char)

def setRemoveFlag : World :=
  match boundId imgs with
  | none => w
  | some imgid => w.updateRow imgid .remove

def getFullPathname : List Path :=
  match boundId imgs with
  | none => []
  | some imgid => (w.lib.path? imgid).toList

variable {w imgs} {conf : Conf} {o : Outcomes} {imgid : Nat}

theorem quiet_setRemoveFlag (lost : Path → Prop) : Quiet lost w (setRemoveFlag w imgs) := by
  rw [setRemoveFlag]
  split
  · exact Quiet.refl lost w
  · exact quiet_updateRow lost w _ _

theorem setRemoveFlag_disk : (setRemoveFlag w imgs).disk = w.disk := by
  rw [setRemoveFlag]
  split <;> rfl

section

variable (imgs : List Char)

theorem hasLocalCopyFlag_setRemoveFlag :
    (setRemoveFlag w imgs).hasLocalCopyFlag imgid = w.hasLocalCopyFlag imgid := by
  rw [setRemoveFlag]
  split
  · rfl
  · rw [hasLocalCopyFlag, updateRow, image?_update, Option.map_map]
    congr 2
    funext img
    rw [Function.comp_apply]
    split <;> rfl

theorem resetRefuses_setRemoveFlag :
    (setRemoveFlag w imgs).resetRefuses conf imgid = w.resetRefuses conf imgid := by
  rw [resetRefuses, resetRefuses, hasLocalCopyFlag_setRemoveFlag,
    localCopyResetRefused_congr (quiet_setRemoveFlag fun _ => False) setRemoveFlag_disk]

theorem isSome_setRemoveFlag :
    ((setRemoveFlag w imgs).lib.image? imgid).isSome = (w.lib.image? imgid).isSome :=
  isSome_image?_congr (quiet_setRemoveFlag fun _ => False).rows

theorem nbOtherLocalCopyFor_setRemoveFlag :
    (setRemoveFlag w imgs).lib.nbOtherLocalCopyFor imgid = w.lib.nbOtherLocalCopyFor imgid := by
  rw [setRemoveFlag]
  split
  · rfl
  · rename_i i _
    simp only [updateRow, nbOtherLocalCopyFor, image?_update]
    cases w.lib.image? imgid with
    | none => rfl
    | some img =>
      have hset : ∀ other : Image, (if other.id = i then RowUpdate.remove.set other
          else other).toImageFile = other.toImageFile ∧
          (if other.id = i then RowUpdate.remove.set other else other).localCopy =
            other.localCopy := by
        intro other
        split <;> exact ⟨rfl, rfl⟩
      simp only [Option.map_some, update, countP_map, (hset img).1]
      refine congrArg (w.lib.images.countP ·) (funext fun other => ?_)
      simp only [Function.comp_apply, (hset other).1, (hset other).2]

end

theorem setRemoveFlag_fileOps : (setRemoveFlag w imgs).fileOps = w.fileOps := by
  rw [setRemoveFlag]
  split <;> rfl

theorem cacheFiles_setRemoveFlag (imgs : List Char) :
    (setRemoveFlag w imgs).cacheFiles conf o imgid = w.cacheFiles conf o imgid := by
  have hquiet : Quiet (fun _ => False) w (setRemoveFlag w imgs) := quiet_setRemoveFlag _
  simp only [cacheFiles, hasLocalCopyFlag_setRemoveFlag,
    localCopyResetRefused_congr hquiet setRemoveFlag_disk,
    imageLocalCopyFullPath_congr hquiet setRemoveFlag_disk,
    localCopyXmp_congr hquiet setRemoveFlag_disk,
    exists?_congr setRemoveFlag_disk, nbOtherLocalCopyFor_setRemoveFlag,
    exists?_congr (dtImageWriteSidecarFile_disk_congr hquiet setRemoveFlag_disk
      setRemoveFlag_fileOps)]

end Statements

section Synch

variable {conf : Conf} {o : Outcomes} {w : World}

-- The `.xmp` files of what is left of the duplicates are written again, at the end of both jobs.
def synchAll (conf : Conf) (o : Outcomes) (w : World) (list : List Path) : World :=
  list.foldl (fun w imgname => w.dtImageSynchAllXmp conf o imgname) w

theorem dtImageSynchAllXmp_lib (pathname : Path) :
    (w.dtImageSynchAllXmp conf o pathname).lib = w.lib := by
  have hfold : ∀ (ids : List Nat) (w : World),
      (ids.foldl (fun w => w.dtImageWriteSidecarFile conf o) w).lib = w.lib := by
    intro ids
    induction ids with
    | nil => exact fun w => rfl
    | cons i ids ih =>
      intro w
      rw [foldl_cons, ih, dtImageWriteSidecarFile_lib]
  rw [dtImageSynchAllXmp]
  split
  · exact hfold _ w
  · rfl

theorem synchAll_lib (list : List Path) : (synchAll conf o w list).lib = w.lib := by
  induction list generalizing w with
  | nil => rfl
  | cons pathname list ih =>
    change (synchAll conf o (w.dtImageSynchAllXmp conf o pathname) list).lib = w.lib
    rw [ih, dtImageSynchAllXmp_lib]

theorem quiet_synchAll (lost : Path → Prop) (list : List Path) :
    Quiet lost w (synchAll conf o w list) := by
  induction list generalizing w with
  | nil => exact Quiet.refl lost w
  | cons pathname list ih => exact (quiet_dtImageSynchAllXmp lost w pathname).trans ih

end Synch

end DTLite
