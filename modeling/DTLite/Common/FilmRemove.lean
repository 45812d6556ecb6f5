import DTLite.Common.GroupLeaders

/-!
# Removing a film roll

`dt_film_remove` removes the images of a roll by a few statements over all of them. It is "basically
the same as" removing one image after the other, but not quite: the other tables are not the same
ones, and no group is repaired.
-/

namespace DTLite

open Reasoning List Option Library

inductive SideTable
  | taggedImages
  | history
  | masksHistory
  | colorLabels
  | metaData
  | selectedImages
  | moduleOrder
  | historyHash
deriving DecidableEq, Repr

/-- The library with the other tables. A row is the id of its image and what else it holds. -/
structure Catalog (ρ : Type) where
  world : World
  tables : SideTable → List (Nat × ρ)

namespace Library

variable (lib : Library)

-- `SELECT id FROM main.images WHERE film_id = ?1`.
def filmImages (film : Nat) : List Nat :=
  (lib.images.filter fun img => img.filmId = film).map (·.id)

-- `DELETE FROM main.images WHERE id IN (SELECT id FROM main.images WHERE film_id = ?1)`.
def deleteFilmImages (film : Nat) : Library where
  images := lib.images.filter fun img => img.filmId ≠ film
  filmRolls := lib.filmRolls
  images_nodup := lib.images_nodup.sublist (filter_sublist.map _)
  filmRolls_nodup := lib.filmRolls_nodup

-- `DELETE FROM main.film_rolls WHERE id = ?1`.
def deleteFilmRoll (film : Nat) : Library where
  images := lib.images
  filmRolls := lib.filmRolls.filter fun roll => roll.id ≠ film
  images_nodup := lib.images_nodup
  filmRolls_nodup := lib.filmRolls_nodup.sublist (filter_sublist.map _)

end Library

namespace Catalog

variable {ρ : Type} (conf : Conf) (o : Outcomes) (c : Catalog ρ)

-- `DELETE FROM … WHERE imgid IN (…)`.
def deleteRows (t : SideTable) (ids : List Nat) : List (Nat × ρ) :=
  (c.tables t).filter fun row => row.1 ∉ ids

def dtImageRemove (imgid : Nat) : Catalog ρ where
  world := c.world.dtImageRemove conf o imgid
  tables t := if (c.world.dtImageLocalCopyReset conf o imgid).2 then c.tables t
    else c.deleteRows t [imgid]

-- The tables that `dt_film_remove` deletes from, by the images of the roll.
def deleteFilmRows (ids : List Nat) : SideTable → List (Nat × ρ)
  | .taggedImages => c.deleteRows .taggedImages ids
  | .history => c.deleteRows .history ids
  | .masksHistory => c.deleteRows .masksHistory ids
  | .colorLabels => c.deleteRows .colorLabels ids
  | .metaData => c.deleteRows .metaData ids
  | .selectedImages => c.deleteRows .selectedImages ids
  | .moduleOrder => c.tables .moduleOrder
  | .historyHash => c.tables .historyHash

def dtFilmRemove (film : Nat) : Catalog ρ :=
  let ids := c.world.lib.filmImages film
  -- only allowed if local copies have their original accessible
  if ids.all (c.world.dtImageSafeRemove conf) then
    let w := ids.foldl (fun w imgid => (w.dtImageLocalCopyReset conf o imgid).1) c.world
    { world := { w with lib := (w.lib.deleteFilmImages film).deleteFilmRoll film }
      tables := c.deleteFilmRows ids }
  else c

/-- What it is to be the same as: `dt_image_remove` on every image of the roll, and the row of the
roll deleted. -/
def removeImagesOf (film : Nat) : Catalog ρ :=
  let c := (c.world.lib.filmImages film).foldl (fun c imgid => c.dtImageRemove conf o imgid) c
  { c with world := { c.world with lib := c.world.lib.deleteFilmRoll film } }

/-- The tables agree, the group ids of the images that are left among them. -/
def SameTables (c c' : Catalog ρ) : Prop :=
  c.world.lib.images = c'.world.lib.images ∧ c.tables = c'.tables

/-- Its images have no module order and no hash, and represent no group with images of other rolls.
-/
structure Separate (c : Catalog ρ) (film : Nat) : Prop where
  moduleOrder : ∀ row ∈ c.tables .moduleOrder, row.1 ∉ c.world.lib.filmImages film
  historyHash : ∀ row ∈ c.tables .historyHash, row.1 ∉ c.world.lib.filmImages film
  groups : ∀ img ∈ c.world.lib.images, img.filmId ≠ film →
    img.groupId ∉ c.world.lib.filmImages film

end Catalog

namespace Library

variable {lib : Library}

def removeImage (lib : Library) (imgid : Nat) : Library := (lib.removeFromGroup imgid).delete imgid

def outside (film : Nat) (lib : Library) : List Image :=
  lib.images.filter fun img => img.filmId ≠ film

variable {film : Nat} {ids : List Nat} {imgid : Nat} {img' : Image}

theorem mem_filmImages {id : Nat} :
    id ∈ lib.filmImages film ↔ ∃ img ∈ lib.images, img.filmId = film ∧ img.id = id := by
  simp [filmImages, and_assoc]

def SameFile (img img' : Image) : Prop :=
  img'.toImageFile = img.toImageFile ∧ img'.localCopy = img.localCopy

theorem exists_of_mem_update {group : Nat} (h : img' ∈ (lib.update imgid (.groupId group)).images) :
    ∃ img ∈ lib.images, SameFile img img' := by
  obtain ⟨img, hmem, rfl⟩ := mem_map.mp h
  refine ⟨img, hmem, ?_⟩
  split <;> exact ⟨rfl, rfl⟩

theorem exists_of_mem_updates {group : Nat}
    (h : img' ∈ (ids.foldl (fun lib other => lib.update other (.groupId group)) lib).images) :
    ∃ img ∈ lib.images, SameFile img img' := by
  induction ids generalizing lib with
  | nil => exact ⟨img', h, rfl, rfl⟩
  | cons id ids ih =>
    obtain ⟨img₁, hmem₁, hfile₁, hcopy₁⟩ := ih h
    obtain ⟨img, hmem, hfile, hcopy⟩ := exists_of_mem_update hmem₁
    exact ⟨img, hmem, hfile₁.trans hfile, hcopy₁.trans hcopy⟩

theorem exists_of_mem_removeFromGroup (h : img' ∈ (lib.removeFromGroup imgid).images) :
    ∃ img ∈ lib.images, SameFile img img' := by
  rw [removeFromGroup] at h
  split at h
  · exact exists_of_mem_updates h
  · exact exists_of_mem_update h

theorem exists_of_mem_removeImage (h : img' ∈ (lib.removeImage imgid).images) :
    img'.id ≠ imgid ∧ ∃ img ∈ lib.images, SameFile img img' :=
  have hmem := mem_images_delete.mp h
  ⟨hmem.2, exists_of_mem_removeFromGroup hmem.1⟩

theorem outside_update (u : RowUpdate)
    (h : ∀ img ∈ lib.images, img.id = imgid → img.filmId = film) :
    (lib.update imgid u).outside film = lib.outside film := by
  have hfilm : ∀ img : Image, (if img.id = imgid then u.set img else img).filmId = img.filmId := by
    intro img
    split
    · rw [u.set_file]
    · rfl
  rw [outside, update, List.filter_map]
  simp only [Function.comp_def, hfilm]
  refine (map_congr_left fun img hmem => if_neg fun hid => ?_).trans (List.map_id' _)
  obtain ⟨hmem, hother⟩ := mem_filter.mp hmem
  exact of_decide_eq_true hother (h img hmem hid)

theorem outside_updates {group : Nat} (h : ∀ img ∈ lib.images, img.id ∈ ids → img.filmId = film) :
    (ids.foldl (fun lib other => lib.update other (.groupId group)) lib).outside film =
      lib.outside film := by
  induction ids generalizing lib with
  | nil => rfl
  | cons id ids ih =>
    rw [foldl_cons, ih, outside_update]
    · exact fun img hmem hid => h img hmem (hid ▸ mem_cons_self)
    · intro img' hmem' hid'
      obtain ⟨img, hmem, hfile, -⟩ := exists_of_mem_update hmem'
      rw [hfile] at hid' ⊢
      exact h img hmem (mem_cons_of_mem id hid')

theorem outside_removeImage (hfilm : ∀ img ∈ lib.images, img.id = imgid → img.filmId = film)
    (hgroup : ∀ img ∈ lib.outside film, img.groupId ≠ imgid) :
    (lib.removeImage imgid).outside film = lib.outside film := by
  have hleft : (lib.removeFromGroup imgid).outside film = lib.outside film := by
    rw [removeFromGroup]
    split
    · apply outside_updates
      intro img hmem hother
      obtain ⟨hof, -⟩ := mem_othersOf.mp hother
      obtain ⟨img', hmem', hid, hgroupId⟩ := groupOf_eq_some_iff.mp hof
      by_contra hne
      obtain rfl : img' = img := inj_on_of_nodup_map lib.images_nodup hmem' hmem hid
      exact hgroup img' (mem_filter.mpr ⟨hmem', decide_eq_true hne⟩) hgroupId
    · exact outside_update _ hfilm
  rw [← hleft, removeImage, outside, delete, List.filter_filter]
  apply filter_congr
  intro img' hmem'
  by_cases hother : img'.filmId = film
  · simp [hother]
  · have hne : img'.id ≠ imgid := by
      intro hid
      obtain ⟨img, hmem, hfile, -⟩ := exists_of_mem_removeFromGroup hmem'
      rw [hfile] at hid hother
      exact hother (hfilm img hmem hid)
    simp [hne]

theorem rows_updates (ids : List Nat) (group : Nat) :
    (ids.foldl (fun lib other => lib.update other (.groupId group)) lib).rows = lib.rows := by
  induction ids generalizing lib with
  | nil => rfl
  | cons id ids ih => rw [foldl_cons, ih, rows_update]

theorem rows_removeImage (imgid : Nat) :
    (lib.removeImage imgid).rows = lib.rows.filter (·.id ≠ imgid) := by
  rw [removeImage, rows_delete, removeFromGroup]
  split
  · rw [rows_updates]
  · rw [rows_update]

theorem exists_of_mem_removeImages (h : img' ∈ (ids.foldl removeImage lib).images) :
    img'.id ∉ ids ∧ ∃ img ∈ lib.images, SameFile img img' := by
  induction ids generalizing lib with
  | nil => exact ⟨not_mem_nil, img', h, rfl, rfl⟩
  | cons id ids ih =>
    obtain ⟨hids, img₁, hmem₁, hfile₁, hcopy₁⟩ := ih h
    obtain ⟨hne, img, hmem, hfile, hcopy⟩ := exists_of_mem_removeImage hmem₁
    rw [← hfile₁] at hne
    exact ⟨by simp [hne, hids], img, hmem, hfile₁.trans hfile, hcopy₁.trans hcopy⟩

theorem outside_removeImages (hfilm : ∀ img ∈ lib.images, img.id ∈ ids → img.filmId = film)
    (hgroup : ∀ img ∈ lib.outside film, img.groupId ∉ ids) :
    (ids.foldl removeImage lib).outside film = lib.outside film := by
  induction ids generalizing lib with
  | nil => rfl
  | cons id ids ih =>
    have hone : (lib.removeImage id).outside film = lib.outside film := by
      apply outside_removeImage
      · exact fun img hmem hid => hfilm img hmem (hid ▸ mem_cons_self)
      · exact fun img hmem hid => hgroup img hmem (hid ▸ mem_cons_self)
    rw [foldl_cons, ih, hone]
    · intro img' hmem' hid'
      obtain ⟨-, img, hmem, hfile, -⟩ := exists_of_mem_removeImage hmem'
      rw [hfile] at hid' ⊢
      exact hfilm img hmem (mem_cons_of_mem id hid')
    · rw [hone]
      exact fun img hmem hid => hgroup img hmem (mem_cons_of_mem id hid)

theorem images_removeImages
    (hgroup : ∀ img ∈ lib.images, img.filmId ≠ film → img.groupId ∉ lib.filmImages film) :
    ((lib.filmImages film).foldl removeImage lib).images = lib.outside film := by
  have houtside : ((lib.filmImages film).foldl removeImage lib).outside film =
      lib.outside film := by
    apply outside_removeImages
    · intro img hmem hid
      obtain ⟨img', hmem', hfilm, hid'⟩ := mem_filmImages.mp hid
      rwa [inj_on_of_nodup_map lib.images_nodup hmem hmem' hid'.symm]
    · intro img hmem
      obtain ⟨hmem, hother⟩ := mem_filter.mp hmem
      exact hgroup img hmem (of_decide_eq_true hother)
  rw [← houtside]
  symm
  apply filter_eq_self.mpr
  intro img' hmem'
  obtain ⟨hid, img, hmem, hfile, -⟩ := exists_of_mem_removeImages hmem'
  apply decide_eq_true
  intro hfilm
  rw [hfile] at hid hfilm
  exact hid (mem_filmImages.mpr ⟨img, hmem, hfilm, rfl⟩)

theorem led_removeImage (h : Led lib.groupOf) (imgid : Nat) :
    Led (lib.removeImage imgid).groupOf := by
  have hgroups : (lib.removeImage imgid).groupOf =
      Function.update (lib.removeFromGroup imgid).groupOf imgid none := by
    funext j
    rw [removeImage, groupOf_delete, Function.update_apply]
  rw [hgroups]
  by_cases hsome : (lib.groupOf imgid).isSome
  · have hleaves := leaves_removeFromGroup h hsome
    exact hleaves.led.erase hleaves.alone
  · have hnone : lib.groupOf imgid = none := not_isSome_iff_eq_none.mp hsome
    have hsame : (lib.removeFromGroup imgid).groupOf = lib.groupOf := by
      funext j
      rw [removeFromGroup, if_neg (by simp [hnone]), groupOf_update]
      split
      · rename_i hj
        rw [hj, hnone, map_none]
      · rfl
    rw [hsame, ← hnone, Function.update_eq_self]
    exact h

theorem led_removeImages (h : Led lib.groupOf) (ids : List Nat) :
    Led (ids.foldl removeImage lib).groupOf := by
  induction ids generalizing lib with
  | nil => exact h
  | cons id ids ih => exact ih (led_removeImage h id)

end Library

/-! ## The code on images without local copies -/

namespace World

variable {conf : Conf} {o : Outcomes} {w : World} {imgid : Nat}

theorem dtGroupingRemoveFromGroup_lib {img : Image} (h : w.lib.image? imgid = some img) :
    (w.dtGroupingRemoveFromGroup conf o imgid).lib = w.lib.removeFromGroup imgid := by
  have hloop : ∀ (group : Nat) (ids : List Nat) (w : World),
      (ids.foldl (fun w other =>
        (w.updateRow other (.groupId group)).dtImageWriteSidecarFile conf o other) w).lib =
      ids.foldl (fun lib other => lib.update other (.groupId group)) w.lib := by
    intro group ids
    induction ids with
    | nil => exact fun w => rfl
    | cons id ids ih =>
      intro w
      rw [foldl_cons, ih, dtImageWriteSidecarFile_lib]
      rfl
  have hgroup : w.lib.groupOf imgid = some img.groupId := by
    rw [groupOf, h, map_some]
  rw [dtGroupingRemoveFromGroup, h, removeFromGroup, hgroup]
  by_cases hleader : img.groupId = imgid
  · simp only [hleader]
    exact hloop _ _ w
  · simp only [hleader, if_false, some.injEq]
    rw [dtImageWriteSidecarFile_lib]
    rfl

theorem dtImageRemove_lib (hsome : (w.lib.image? imgid).isSome)
    (hflag : w.hasLocalCopyFlag imgid = false) :
    (w.dtImageRemove conf o imgid).lib = w.lib.removeImage imgid := by
  obtain ⟨img, himg⟩ := isSome_iff_exists.mp hsome
  rw [dtImageRemove, reset_of_no_flag hflag]
  show (w.dtGroupingRemoveFromGroup conf o imgid).lib.delete imgid = _
  rw [dtGroupingRemoveFromGroup_lib himg]
  rfl

def HasNoLocalCopy (conf : Conf) (w : World) (imgid : Nat) : Prop :=
  w.hasLocalCopyFlag imgid = false ∧ w.exists? (w.imageLocalCopyFullPath conf imgid) = false

instance decidableHasNoLocalCopy (conf : Conf) (w : World) (imgid : Nat) :
    Decidable (HasNoLocalCopy conf w imgid) :=
  inferInstanceAs (Decidable (_ ∧ _))

theorem HasNoLocalCopy.safe (h : HasNoLocalCopy conf w imgid) :
    w.dtImageSafeRemove conf imgid = true := by
  rw [dtImageSafeRemove]
  split
  · rfl
  · simp [dtImageFullPath, h.2]

theorem resets_eq {ids : List Nat} (h : ∀ id ∈ ids, w.hasLocalCopyFlag id = false) :
    ids.foldl (fun w imgid => (w.dtImageLocalCopyReset conf o imgid).1) w = w := by
  induction ids with
  | nil => rfl
  | cons id ids ih =>
    rw [foldl_cons, reset_of_no_flag (h id mem_cons_self)]
    exact ih fun other hother => h other (mem_cons_of_mem id hother)

end World

namespace Catalog

variable {ρ : Type} {conf : Conf} {o : Outcomes} {c : Catalog ρ}

theorem dtImageRemove_tables {imgid : Nat} (h : c.world.hasLocalCopyFlag imgid = false) :
    (c.dtImageRemove conf o imgid).tables = fun t => c.deleteRows t [imgid] := by
  rw [dtImageRemove, World.reset_of_no_flag h]
  rfl

theorem removeImages_spec (conf : Conf) (o : Outcomes) {ids : List Nat} (hnodup : ids.Nodup)
    (hexists : ∀ id ∈ ids, (c.world.lib.image? id).isSome)
    (hflag : ∀ id ∈ ids, c.world.hasLocalCopyFlag id = false) :
    (ids.foldl (fun c imgid => c.dtImageRemove conf o imgid) c).world.lib =
        ids.foldl removeImage c.world.lib ∧
      (ids.foldl (fun c imgid => c.dtImageRemove conf o imgid) c).tables =
        fun t => c.deleteRows t ids := by
  induction ids generalizing c with
  | nil => exact ⟨rfl, funext fun t => by simp [deleteRows]⟩
  | cons id ids ih =>
    have hid := hflag id mem_cons_self
    have hlib : (c.dtImageRemove conf o id).world.lib = c.world.lib.removeImage id :=
      World.dtImageRemove_lib (hexists id mem_cons_self) hid
    obtain ⟨hnot, hnodup⟩ := nodup_cons.mp hnodup
    have hexists' : ∀ other ∈ ids,
        ((c.dtImageRemove conf o id).world.lib.image? other).isSome := by
      intro other hother
      have hold := hexists other (mem_cons_of_mem id hother)
      rw [hlib, isSome_image?_iff_rows, rows_removeImage]
      obtain ⟨file, hfile, hfileId⟩ := isSome_image?_iff_rows.mp hold
      refine ⟨file, mem_filter.mpr ⟨hfile, decide_eq_true ?_⟩, hfileId⟩
      rintro rfl
      exact hnot (hfileId ▸ hother)
    have hflag' : ∀ other ∈ ids,
        (c.dtImageRemove conf o id).world.hasLocalCopyFlag other = false := by
      intro other hother
      rw [Bool.eq_false_iff, Ne, World.hasLocalCopyFlag_iff, hlib]
      rintro ⟨img', hmem', hid', hcopy'⟩
      obtain ⟨-, img, hmem, hfile, hcopy⟩ := exists_of_mem_removeImage hmem'
      have hold := hflag other (mem_cons_of_mem id hother)
      rw [Bool.eq_false_iff, Ne, World.hasLocalCopyFlag_iff] at hold
      rw [hfile] at hid'
      exact hold ⟨img, hmem, hid', hcopy.symm.trans hcopy'⟩
    obtain ⟨hlibs, htables⟩ := ih hnodup hexists' hflag'
    rw [foldl_cons, hlibs, htables, hlib]
    refine ⟨rfl, funext fun t => ?_⟩
    simp only [deleteRows, dtImageRemove_tables hid, List.filter_filter]
    apply filter_congr
    intro row _
    simp [Bool.and_comm]

section Film

variable (conf o c) (film : Nat)

theorem filmImages_spec :
    (c.world.lib.filmImages film).Nodup ∧
      ∀ id ∈ c.world.lib.filmImages film, (c.world.lib.image? id).isSome := by
  constructor
  · exact c.world.lib.images_nodup.sublist (filter_sublist.map _)
  · intro id hid
    obtain ⟨img, hmem, -, rfl⟩ := mem_filmImages.mp hid
    rw [image?_eq_some_iff.mpr ⟨hmem, rfl⟩, isSome_some]

variable {c film}
variable (hcopy : ∀ id ∈ c.world.lib.filmImages film, World.HasNoLocalCopy conf c.world id)
include hcopy

theorem dtFilmRemove_spec :
    (c.dtFilmRemove conf o film).world.lib.images = c.world.lib.outside film ∧
      (c.dtFilmRemove conf o film).tables = c.deleteFilmRows (c.world.lib.filmImages film) := by
  have hsafe : (c.world.lib.filmImages film).all (c.world.dtImageSafeRemove conf) = true :=
    all_eq_true.mpr fun id hid => (hcopy id hid).safe
  rw [dtFilmRemove, if_pos hsafe, World.resets_eq fun id hid => (hcopy id hid).1]
  exact ⟨rfl, rfl⟩

theorem removeImagesOf_spec :
    (c.removeImagesOf conf o film).world.lib.images =
        ((c.world.lib.filmImages film).foldl removeImage c.world.lib).images ∧
      (c.removeImagesOf conf o film).tables =
        fun t => c.deleteRows t (c.world.lib.filmImages film) := by
  obtain ⟨hnodup, hexists⟩ := filmImages_spec c film
  obtain ⟨hlib, htables⟩ := removeImages_spec conf o hnodup hexists fun id hid => (hcopy id hid).1
  refine ⟨?_, htables⟩
  rw [← hlib]
  rfl

/-- `dt_film_remove` does the same to the tables as removing the images of the roll one by one if
nothing of the roll is left behind; and with groups that have their representatives, only then. -/
theorem dtFilmRemove_same :
    (c.Separate film →
        SameTables (c.dtFilmRemove conf o film) (c.removeImagesOf conf o film)) ∧
      (c.world.lib.GroupsLed →
        SameTables (c.dtFilmRemove conf o film) (c.removeImagesOf conf o film) →
        c.Separate film) := by
  obtain ⟨himages, htables⟩ := dtFilmRemove_spec conf o hcopy
  obtain ⟨himages', htables'⟩ := removeImagesOf_spec conf o hcopy
  rw [SameTables, himages, himages', htables, htables']
  constructor
  · intro h
    refine ⟨(images_removeImages h.groups).symm, funext fun t => ?_⟩
    cases t with
    | moduleOrder =>
      exact (filter_eq_self.mpr fun row hrow => decide_eq_true (h.moduleOrder row hrow)).symm
    | historyHash =>
      exact (filter_eq_self.mpr fun row hrow => decide_eq_true (h.historyHash row hrow)).symm
    | _ => rfl
  · rintro hled ⟨hsame, hrows⟩
    refine ⟨fun row hrow => ?_, fun row hrow => ?_, fun img hmem hother hgroup => ?_⟩
    · have hall := filter_eq_self.mp (congrFun hrows .moduleOrder).symm
      exact of_decide_eq_true (hall row hrow)
    · have hall := filter_eq_self.mp (congrFun hrows .historyHash).symm
      exact of_decide_eq_true (hall row hrow)
    · -- The group of such an image is repaired, so its representative would still have to be there.
      have hled' := led_removeImages (groupsLed_iff.mp hled)
        (c.world.lib.filmImages film)
      have hleft : img ∈ ((c.world.lib.filmImages film).foldl removeImage
          c.world.lib).images := by
        rw [← hsame]
        exact mem_filter.mpr ⟨hmem, decide_eq_true hother⟩
      have hleader := hled' _ _ (groupOf_eq_some_iff.mpr ⟨img, hleft, rfl, rfl⟩)
      obtain ⟨leader, hleader, hid, -⟩ := groupOf_eq_some_iff.mp hleader
      exact (exists_of_mem_removeImages hleader).1 (hid ▸ hgroup)

end Film

end Catalog

-- The image 7 of the roll 1 and the image 8 of the roll 2, in groups as said.
def twoRolls (group group' : Nat) (moduleOrder : List (Nat × Unit)) : Catalog Unit where
  world := sampleWorld
    [{ sampleImage 7 "G.raw" false (by decide) with groupId := group },
      { sampleImage 8 "H.raw" false (by decide) with filmId := 2, groupId := group' }]
    (show [7, 8].Nodup by decide) ["/p/G.raw"]
  tables
    | .moduleOrder => moduleOrder
    | .historyHash => []
    | _ => [(7, ()), (8, ())]

theorem dtFilmRemove_same_single :
    Catalog.SameTables ((twoRolls 7 8 [(8, ())]).dtFilmRemove sampleConf allSucceed 1)
      ((twoRolls 7 8 [(8, ())]).removeImagesOf sampleConf allSucceed 1) := by
  apply (Catalog.dtFilmRemove_same sampleConf allSucceed (by decide)).1
  exact ⟨by decide, by decide, by decide⟩

-- The image 7 represents the image 8, which keeps the group of an image that is no longer there.
theorem dtFilmRemove_breaks_group :
    ¬ Catalog.SameTables ((twoRolls 7 7 []).dtFilmRemove sampleConf allSucceed 1)
      ((twoRolls 7 7 []).removeImagesOf sampleConf allSucceed 1) := by
  rintro ⟨himages, -⟩
  revert himages
  decide

end DTLite
