import DTLite.Control.ImageList

/-! `dt_control_remove_images_job_run`: images removed from the library, unless a local copy that is
not safe to remove stands in the way. -/

namespace DTLite

open Reasoning List World Library

section Job

variable (conf : Conf) (o : Outcomes) (w : World) (ids : List Nat)

-- `SELECT id FROM main.images WHERE id IN (?2) AND flags&?1=?1` finds no image that is not safe.
def removeOk (imgs : List Char) : Bool :=
  (w.lib.images.filter fun img => boundId imgs = some img.id ∧ img.localCopy).all fun img =>
    w.dtImageSafeRemove conf img.id

def removeEach : World := ids.foldl (fun w imgid => w.dtImageRemove conf o imgid) w

def dtControlRemoveImagesJobRun : World :=
  let imgs := getImageList ids
  if !removeOk conf w imgs then w
  else
    let w := setRemoveFlag w imgs
    let list := getFullPathname w imgs
    (synchAll conf o (removeEach conf o w ids) list).dtFilmRemoveEmpty

end Job

variable (conf : Conf) (w : World)

/-- No image leaves the library, and none gets the remove flag. -/
def RemovesNothing (w' : World) : Prop :=
  ∀ img ∈ w.lib.images, ∃ img' ∈ w'.lib.images,
    img'.id = img.id ∧ (img'.remove = true → img.remove = true)

instance (w w' : World) : Decidable (RemovesNothing w w') := by
  unfold RemovesNothing
  infer_instance

section Lemmas

variable {conf : Conf} {o : Outcomes} {w : World} {ids : List Nat} {imgid : Nat} {img : Image}

theorem RemovesNothing.refl (w : World) : RemovesNothing w w :=
  fun img hmem => ⟨img, hmem, rfl, id⟩

theorem dtControlRemoveImagesJobRun_images (hok : removeOk conf w (getImageList ids) = true) :
    (dtControlRemoveImagesJobRun conf o w ids).lib.images =
      (removeEach conf o (setRemoveFlag w (getImageList ids)) ids).lib.images := by
  rw [dtControlRemoveImagesJobRun, hok]
  change (synchAll conf o _ _).lib.images = _
  rw [synchAll_lib]

theorem removeOk_eq_false_iff : removeOk conf w (getImageList ids) = false ↔
    ∃ i, ids = [i] ∧ w.hasLocalCopyFlag (shownId i) = true ∧
      w.dtImageSafeRemove conf (shownId i) = false := by
  simp only [removeOk, all_eq_false, mem_filter, decide_eq_true_eq]
  constructor
  · rintro ⟨img, ⟨hmem, hbound, hcopy⟩, hunsafe⟩
    have hlen : ids.length = 1 := by
      by_contra hlen
      rw [boundId_eq_none hlen] at hbound
      cases hbound
    obtain ⟨i, rfl⟩ := length_eq_one_iff.1 hlen
    have hid : shownId i = img.id := by simpa [boundId_singleton] using hbound
    have hflag := hasLocalCopyFlag_iff.2 ⟨img, hmem, hid.symm, hcopy⟩
    rw [← hid] at hunsafe
    exact ⟨i, rfl, hflag, by simpa using hunsafe⟩
  · rintro ⟨i, rfl, hflag, hunsafe⟩
    obtain ⟨img, hmem, hid, hcopy⟩ := hasLocalCopyFlag_iff.1 hflag
    refine ⟨img, ⟨hmem, ?_, hcopy⟩, ?_⟩
    · rw [boundId_singleton, hid]
    · simp [hid, hunsafe]

section RemoveEach

theorem removeEach_of_refused
    (h : ∀ i ∈ ids, (w.lib.image? i).isSome → w.resetRefuses conf i = true) :
    removeEach conf o w ids = w := by
  induction ids with
  | nil => rfl
  | cons i ids ih =>
    have hfirst : w.dtImageRemove conf o i = w := by
      cases himg : w.lib.image? i with
      | none => exact dtImageRemove_of_missing himg
      | some img =>
        apply dtImageRemove_of_refused
        exact h i mem_cons_self (by rw [himg]; rfl)
    change removeEach conf o (w.dtImageRemove conf o i) ids = w
    rw [hfirst]
    exact ih fun j hj => h j (mem_cons_of_mem i hj)

theorem image?_eq_none_dtImageRemove (h : w.lib.image? imgid = none) (i : Nat) :
    (w.dtImageRemove conf o i).lib.image? imgid = none := by
  rw [image?_eq_none_iff_rows] at h ⊢
  have hsub : ∀ file ∈ (w.dtImageRemove conf o i).lib.rows, file ∈ w.lib.rows := by
    obtain ⟨hrows, -⟩ | ⟨hrows, -⟩ := rows_dtImageRemove w i
    · exact fun file hfile => by rwa [hrows] at hfile
    · exact fun file hfile => mem_of_mem_filter (by rwa [hrows] at hfile)
  exact fun file hfile => h file (hsub file hfile)

theorem image?_eq_none_removeEach (h : w.lib.image? imgid = none) (ids : List Nat) :
    (removeEach conf o w ids).lib.image? imgid = none := by
  induction ids generalizing w with
  | nil => exact h
  | cons i ids ih => exact ih (image?_eq_none_dtImageRemove h i)

theorem exists_gone_of_not_refused {i : Nat} (hi : i ∈ ids) (himg : (w.lib.image? i).isSome)
    (href : w.resetRefuses conf i = false) :
    ∃ j, (w.lib.image? j).isSome ∧ (removeEach conf o w ids).lib.image? j = none := by
  induction ids with
  | nil => cases hi
  | cons j ids ih =>
    change ∃ k, _ ∧ (removeEach conf o (w.dtImageRemove conf o j) ids).lib.image? k = none
    by_cases hj : (w.lib.image? j).isSome = true ∧ w.resetRefuses conf j = false
    · -- the first image is removed, and no later removal brings it back
      obtain ⟨w', -, heq⟩ := dtImageRemove_of_not_refused (o := o) hj.2
      refine ⟨j, hj.1, image?_eq_none_removeEach ?_ ids⟩
      rw [heq]
      exact image?_delete_self
    · have hsame : w.dtImageRemove conf o j = w := by
        cases himg : w.lib.image? j with
        | none => exact dtImageRemove_of_missing himg
        | some img =>
          apply dtImageRemove_of_refused
          simpa [himg] using hj
      have hne : i ≠ j := by
        rintro rfl
        exact hj ⟨himg, href⟩
      rw [hsame]
      exact ih ((mem_cons.1 hi).resolve_left hne)

end RemoveEach

section Flag

/-- Marking rows goes unnoticed exactly where the text stands for no image that is unmarked. -/
theorem removesNothing_setRemoveFlag_iff (imgs : List Char) :
    RemovesNothing w (setRemoveFlag w imgs) ↔
      ∀ i, boundId imgs = some i → ∀ img, w.lib.image? i = some img → img.remove = true := by
  rw [setRemoveFlag]
  cases boundId imgs with
  | none => simpa using RemovesNothing.refl w
  | some i =>
    simp only [Option.some.injEq, forall_eq']
    constructor
    · intro h img himg
      obtain ⟨hmem, hid⟩ := image?_eq_some_iff.1 himg
      obtain ⟨img', hmem', hid', hremove⟩ := h img hmem
      obtain ⟨img₀, hmem₀, rfl⟩ := mem_map.1 hmem'
      -- the row of `img'` is that of `img`, since the update keeps the keys
      have hkey : img₀.id = img.id := by
        split at hid'
        · exact hid'
        · exact hid'
      have heq : img₀ = img := inj_on_of_nodup_map w.lib.images_nodup hmem₀ hmem hkey
      subst heq
      rw [if_pos hid] at hremove
      exact hremove rfl
    · intro h img hmem
      refine ⟨_, mem_map_of_mem hmem, ?_⟩
      split
      · rename_i hid
        exact ⟨rfl, fun _ => h img (image?_eq_some_iff.2 ⟨hmem, hid⟩)⟩
      · exact ⟨rfl, id⟩

end Flag

end Lemmas

variable (ids : List Nat)

/-- The images of the list that are in the library all wait for their original. -/
def AllRefused : Prop :=
  ∀ i ∈ ids, (w.lib.image? i).isSome = true → w.resetRefuses conf i = true

instance (conf : Conf) (w : World) (ids : List Nat) : Decidable (AllRefused conf w ids) := by
  unfold AllRefused
  infer_instance

/-- Some listed image has a local copy that is not safe to remove. -/
def ListsUnsafe : Prop :=
  ∃ i ∈ ids, w.hasLocalCopyFlag i = true ∧ w.dtImageSafeRemove conf i = false

instance (conf : Conf) (w : World) (ids : List Nat) : Decidable (ListsUnsafe conf w ids) := by
  unfold ListsUnsafe
  infer_instance

/-- The list is one image, and the image its text shows is the unsafe one. -/
def ShowsUnsafe : Prop :=
  ∃ i, ids = [i] ∧ w.hasLocalCopyFlag (shownId i) = true ∧
    w.dtImageSafeRemove conf (shownId i) = false

/-- The text of the list shows no image that is not marked already. -/
def ShowsMarked : Prop :=
  ∀ i, ids = [i] → ∀ img, w.lib.image? (shownId i) = some img → img.remove = true

theorem showsMarked_iff {w : World} {ids : List Nat} : ShowsMarked w ids ↔
    ∀ i, boundId (getImageList ids) = some i → ∀ img, w.lib.image? i = some img →
      img.remove = true := by
  constructor
  · intro h i hbound
    have hlen : ids.length = 1 := by
      by_contra hlen
      simp [boundId_eq_none hlen] at hbound
    obtain ⟨j, rfl⟩ := length_eq_one_iff.1 hlen
    rw [boundId_singleton, Option.some.injEq] at hbound
    rw [← hbound]
    exact h j rfl
  · rintro h i rfl
    exact h (shownId i) (boundId_singleton i)

theorem removesNothing_iff (o : Outcomes) (w : World) (ids : List Nat) :
    RemovesNothing w (dtControlRemoveImagesJobRun conf o w ids) ↔
      ShowsUnsafe conf w ids ∨ (AllRefused conf w ids ∧ ShowsMarked w ids) := by
  cases hok : removeOk conf w (getImageList ids) with
  | false =>
    have hjob : dtControlRemoveImagesJobRun conf o w ids = w := by
      rw [dtControlRemoveImagesJobRun, hok]
      rfl
    rw [hjob]
    exact iff_of_true (RemovesNothing.refl w) (Or.inl (removeOk_eq_false_iff.1 hok))
  | true =>
    have hshows : ¬ ShowsUnsafe conf w ids := by
      intro h
      rw [removeOk_eq_false_iff.2 h] at hok
      cases hok
    rw [or_iff_right hshows, RemovesNothing, dtControlRemoveImagesJobRun_images hok]
    change RemovesNothing w (removeEach conf o (setRemoveFlag w (getImageList ids)) ids) ↔ _
    by_cases hrefused : AllRefused conf w ids
    · -- nothing is removed, so only the marks count
      rw [removeEach_of_refused, removesNothing_setRemoveFlag_iff, ← showsMarked_iff,
        and_iff_right hrefused]
      intro i hi hsome
      rw [isSome_setRemoveFlag] at hsome
      rw [resetRefuses_setRemoveFlag]
      exact hrefused i hi hsome
    · refine iff_of_false (fun hkeeps => ?_) (fun h => hrefused h.1)
      simp only [AllRefused, not_forall, Bool.not_eq_true] at hrefused
      obtain ⟨i, hi, hsome, hnot⟩ := hrefused
      rw [← isSome_setRemoveFlag (getImageList ids)] at hsome
      rw [← resetRefuses_setRemoveFlag (getImageList ids)] at hnot
      obtain ⟨j, hj, hgone⟩ := exists_gone_of_not_refused (o := o) hi hsome hnot
      rw [isSome_setRemoveFlag, Option.isSome_iff_exists] at hj
      obtain ⟨img, himg⟩ := hj
      obtain ⟨hmem, hid⟩ := image?_eq_some_iff.1 himg
      obtain ⟨img', hmem', hid', -⟩ := hkeeps img hmem
      exact image?_eq_none_iff.1 hgone img' hmem' (hid'.trans hid)

/-- The job respects an unsafe local copy in the list exactly if the list is one image, under the id
its text shows, or else every removal is refused on its own and no image gets marked. -/
theorem removeImages_respects_unsafe_iff (conf : Conf) (o : Outcomes) (w : World) (ids : List Nat) :
    (ListsUnsafe conf w ids → RemovesNothing w (dtControlRemoveImagesJobRun conf o w ids)) ↔
      (ListsUnsafe conf w ids →
        ShowsUnsafe conf w ids ∨ (AllRefused conf w ids ∧ ShowsMarked w ids)) := by
  rw [removesNothing_iff]

-- Edits of the local copy of the first image wait next to it.
def editedCopyWorld : World :=
  sampleWorld [sampleA true, sampleImage 2 "B.raw" false (by decide)] (by decide)
    ["/p/A.raw", "/p/B.raw", "/c/img-A.raw", "/c/img-A.raw.xmp"]

theorem removeImages_two_drops_unsafe :
    ListsUnsafe sampleConf editedCopyWorld [1, 2] ∧
      ¬ RemovesNothing editedCopyWorld
        (dtControlRemoveImagesJobRun sampleConf allSucceed editedCopyWorld [1, 2]) ∧
      RemovesNothing editedCopyWorld
        (dtControlRemoveImagesJobRun sampleConf allSucceed editedCopyWorld [1]) := by
  decide

end DTLite
