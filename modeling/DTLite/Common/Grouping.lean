import DTLite.Common.ImageEffects
import DTLite.Reasoning.Leaders
import DTLite.Reasoning.Runs

/-!
# Groups of images

An image's `group_id` is the id of the image that represents its group. The functions of
`common/grouping.c` read it from the image cache and write it through to `main.images`; duplicating
and removing an image call them.
-/

namespace DTLite

open Reasoning List

/-! ## The table -/

namespace Library

variable (lib : Library)

-- `UPDATE main.images SET … WHERE …`.
def updateWhere (p : Image → Bool) (u : RowUpdate) : Library where
  images := lib.images.map fun img => if p img then u.set img else img
  filmRolls := lib.filmRolls
  images_nodup := lib.map_set_nodup u p
  filmRolls_nodup := lib.filmRolls_nodup

-- `INSERT INTO main.images …`, with an id that no image has.
def insert (img : Image) (h : ∀ old ∈ lib.images, old.id ≠ img.id) : Library where
  images := lib.images ++ [img]
  filmRolls := lib.filmRolls
  images_nodup := by
    rw [map_append, map_singleton, nodup_append_comm, singleton_append, nodup_cons]
    refine ⟨fun hmem => ?_, lib.images_nodup⟩
    obtain ⟨old, hold, hid⟩ := mem_map.mp hmem
    exact h old hold hid
  filmRolls_nodup := lib.filmRolls_nodup

-- `SELECT group_id FROM main.images WHERE id = ?`.
def groupOf (imgid : Nat) : Option Nat := (lib.image? imgid).map Image.groupId

-- `SELECT id FROM main.images WHERE group_id = ?1 AND id != ?2`.
def othersOf (group imgid : Nat) : List Nat :=
  (lib.images.filter fun img => img.groupId = group ∧ img.id ≠ imgid).map (·.id)

/-- Every image's `group_id` names an image whose own `group_id` is itself. -/
def GroupsLed : Prop :=
  ∀ img ∈ lib.images, ∃ leader ∈ lib.images, leader.id = img.groupId ∧ leader.groupId = leader.id

variable {lib}

theorem groupOf_eq_some_iff {imgid group : Nat} :
    lib.groupOf imgid = some group ↔ ∃ img ∈ lib.images, img.id = imgid ∧ img.groupId = group := by
  simp only [groupOf, Option.map_eq_some_iff, image?_eq_some_iff]
  constructor
  · rintro ⟨img, ⟨hmem, hid⟩, hgroup⟩
    exact ⟨img, hmem, hid, hgroup⟩
  · rintro ⟨img, hmem, hid, hgroup⟩
    exact ⟨img, ⟨hmem, hid⟩, hgroup⟩

theorem groupsLed_iff : lib.GroupsLed ↔ Led lib.groupOf := by
  constructor
  · intro h i g hi
    obtain ⟨img, hmem, -, hgroup⟩ := groupOf_eq_some_iff.mp hi
    obtain ⟨leader, hleader, hid, hself⟩ := h img hmem
    rw [groupOf_eq_some_iff]
    exact ⟨leader, hleader, hid.trans hgroup, hself.trans (hid.trans hgroup)⟩
  · intro h img hmem
    have himg : lib.groupOf img.id = some img.groupId :=
      groupOf_eq_some_iff.mpr ⟨img, hmem, rfl, rfl⟩
    obtain ⟨leader, hleader, hid, hself⟩ := groupOf_eq_some_iff.mp (h _ _ himg)
    exact ⟨leader, hleader, hid, hself.trans hid.symm⟩

theorem groupOf_update (imgid group j : Nat) :
    (lib.update imgid (.groupId group)).groupOf j =
      if j = imgid then (lib.groupOf j).map fun _ => group else lib.groupOf j := by
  rw [groupOf, groupOf, image?_update]
  cases himg : lib.image? j with
  | none => simp
  | some img =>
    have hid : img.id = j := (image?_eq_some_iff.mp himg).2
    by_cases hj : j = imgid
    · simp [hid, hj, RowUpdate.groupId]
    · simp [hid, hj]

theorem groupOf_delete (imgid j : Nat) :
    (lib.delete imgid).groupOf j = if j = imgid then none else lib.groupOf j := by
  by_cases hj : j = imgid
  · rw [if_pos hj, hj, groupOf, image?_delete_self, Option.map_none]
  · rw [if_neg hj]
    apply Option.ext
    intro group
    rw [groupOf_eq_some_iff, groupOf_eq_some_iff]
    constructor
    · rintro ⟨img, hmem, hid, hgroup⟩
      exact ⟨img, (mem_images_delete.mp hmem).1, hid, hgroup⟩
    · rintro ⟨img, hmem, hid, hgroup⟩
      exact ⟨img, mem_images_delete.mpr ⟨hmem, hid ▸ hj⟩, hid, hgroup⟩

theorem groupOf_insert {img : Image} (h : ∀ old ∈ lib.images, old.id ≠ img.id) :
    (lib.insert img h).groupOf = Function.update lib.groupOf img.id (some img.groupId) := by
  funext j
  apply Option.ext
  intro group
  have hmem : ∀ old, old ∈ (lib.insert img h).images ↔ old ∈ lib.images ∨ old = img := by
    simp [insert]
  rw [groupOf_eq_some_iff]
  by_cases hj : j = img.id
  · subst hj
    rw [Function.update_self, Option.some.injEq]
    constructor
    · rintro ⟨old, hold, hid, hgroup⟩
      rcases (hmem old).mp hold with hold | rfl
      · exact absurd hid (h old hold)
      · exact hgroup
    · intro hgroup
      exact ⟨img, (hmem img).mpr (.inr rfl), rfl, hgroup⟩
  · rw [Function.update_of_ne hj, groupOf_eq_some_iff]
    constructor
    · rintro ⟨old, hold, hid, hgroup⟩
      rcases (hmem old).mp hold with hold | rfl
      · exact ⟨old, hold, hid, hgroup⟩
      · exact absurd hid.symm hj
    · rintro ⟨old, hold, hid, hgroup⟩
      exact ⟨old, (hmem old).mpr (.inl hold), hid, hgroup⟩

theorem updateWhere_of_none {p : Image → Bool} (u : RowUpdate) (h : ∀ img ∈ lib.images, ¬ p img) :
    lib.updateWhere p u = lib := by
  have himages : (lib.images.map fun img => if p img then u.set img else img) = lib.images := by
    rw [map_congr_left fun img hmem => if_neg (h img hmem), map_id']
  rw [updateWhere]
  congr 1

end Library

/-! ## The functions -/

/-- The table, the `group_id`s in the image cache and the highest id that was ever given: the ids
are `AUTOINCREMENT`. -/
structure GroupedImages where
  lib : Library
  -- the images in the cache; one that is not in the table gets `-1`
  cached : Nat → Option Int
  lastId : Nat
  lastId_ok : ∀ img ∈ lib.images, img.id ≤ lastId

inductive LocalCopyOutcome
  | none
  | reset
  | refused
deriving DecidableEq, Repr

namespace GroupedImages

variable (g : GroupedImages)

-- `dt_image_cache_get` with its release, and the `group_id` it gives.
def load (imgid : Nat) : GroupedImages × Int :=
  match g.cached imgid with
  | some group => (g, group)
  | none =>
      let group : Int := ((g.lib.groupOf imgid).map Int.ofNat).getD (-1)
      ({ g with cached := Function.update g.cached imgid (some group) }, group)

theorem lastId_update (imgid : Nat) (u : Library.RowUpdate) :
    ∀ img ∈ (g.lib.update imgid u).images, img.id ≤ g.lastId := by
  intro img hmem
  obtain ⟨old, hold, rfl⟩ := mem_map.mp hmem
  have hle := g.lastId_ok old hold
  split
  · rw [u.set_file]
    exact hle
  · exact hle

-- `group_id` set in the cache and written through by `dt_image_cache_write_release`.
def setGroup (imgid group : Nat) : GroupedImages where
  lib := g.lib.update imgid (.groupId group)
  cached := Function.update g.cached imgid (some group)
  lastId := g.lastId
  lastId_ok := g.lastId_update imgid _

def touch (imgid : Nat) : GroupedImages :=
  let loaded := g.load imgid
  loaded.1.setGroup imgid loaded.2.toNat

-- `UPDATE main.images SET group_id = ?1 WHERE group_id = ?2 AND id != ?3`.
def updateOthers (newGroup group imgid : Nat) : GroupedImages where
  lib := g.lib.updateWhere (fun img => img.groupId = group ∧ img.id ≠ imgid) (.groupId newGroup)
  cached := g.cached
  lastId := g.lastId
  lastId_ok := by
    intro img hmem
    obtain ⟨old, hold, rfl⟩ := mem_map.mp hmem
    have hle := g.lastId_ok old hold
    split
    · exact hle
    · exact hle

/-- The first of the others is the new representative. -/
def dtGroupingRemoveFromGroup (imgid : Nat) : GroupedImages × Int :=
  let loaded := g.load imgid
  let g := loaded.1
  if loaded.2 = imgid then
    let others := g.lib.othersOf imgid imgid
    let newGroupId := others.headD 0
    let g := others.foldl (fun g other => g.setGroup other newGroupId) g
    (g.updateOthers newGroupId imgid imgid, if others = [] then -1 else newGroupId)
  else (g.setGroup imgid imgid, loaded.2)

def dtGroupingAddToGroup (groupId imgid : Nat) : GroupedImages :=
  (g.dtGroupingRemoveFromGroup imgid).1.setGroup imgid groupId

def dtGroupingChangeRepresentative (imgid : Nat) : GroupedImages :=
  let loaded := g.load imgid
  let g := loaded.1
  let members := (g.lib.images.filter fun img => (img.groupId : Int) = loaded.2).map (·.id)
  members.foldl (fun g other => g.setGroup other imgid) g

-- The copy of a row that `_image_duplicate_with_version` inserts.
def insertCopy (img : Image) (version : Nat) : GroupedImages where
  lib := g.lib.insert { img with id := g.lastId + 1, version := version } fun old hold =>
    Nat.ne_of_lt (Nat.lt_succ_of_le (g.lastId_ok old hold))
  cached := g.cached
  lastId := g.lastId + 1
  lastId_ok := by
    intro old hmem
    rcases mem_append.mp hmem with hold | hnew
    · exact (g.lastId_ok old hold).trans (Nat.le_succ _)
    · rw [mem_singleton.mp hnew]

-- `SELECT a.id … WHERE a.film_id = b.film_id AND a.filename = b.filename AND b.id = ?1 …
-- ORDER BY a.id DESC`, the first row.
def lastCopy (img : Image) (p : Image → Bool) : Option Nat :=
  ((g.lib.images.filter fun a =>
    a.filmId = img.filmId ∧ a.filename = img.filename ∧ p a).map (·.id)).max?

/-- The new id, `none` for `-1`. `maxVersion` is what the column of that name holds for the image.
-/
def imageDuplicateWithVersion (imgid : Nat) (newversion : Option Nat) (maxVersion : Nat) :
    GroupedImages × Option Nat :=
  match g.lib.image? imgid with
  | none => (g, none)
  | some img =>
      match newversion.bind fun version => g.lastCopy img fun a => a.version = version with
      | some newid => (g, some newid)
      | none =>
          let g := g.insertCopy img (newversion.getD (maxVersion + 1))
          (g, g.lastCopy img fun _ => true)

def dtImageDuplicateWithVersion (imgid : Nat) (newversion : Option Nat) (maxVersion : Nat) :
    GroupedImages :=
  match g.imageDuplicateWithVersion imgid newversion maxVersion with
  | (g, none) => g
  | (g, some newid) =>
      let g := g.touch newid
      let loaded := g.load imgid
      loaded.1.dtGroupingAddToGroup loaded.2.toNat newid

-- Changes the flags of the image if it has a local copy.
def dtImageLocalCopyReset (imgid : Nat) : LocalCopyOutcome → GroupedImages
  | .reset => g.touch imgid
  | _ => (g.load imgid).1

def evict (imgid : Nat) : GroupedImages :=
  { g with cached := Function.update g.cached imgid none }

-- `DELETE FROM main.images WHERE id = ?1`.
def delete (imgid : Nat) : GroupedImages where
  lib := g.lib.delete imgid
  cached := g.cached
  lastId := g.lastId
  lastId_ok img hmem := g.lastId_ok img (Library.mem_images_delete.mp hmem).1

/-- The groups and the cache. -/
def dtImageRemove (imgid : Nat) (outcome : LocalCopyOutcome) : GroupedImages :=
  let g := g.dtImageLocalCopyReset imgid outcome
  if outcome = .refused then g
  else
    let g := (g.load imgid).1
    ((g.evict imgid).dtGroupingRemoveFromGroup imgid).1.delete imgid

end GroupedImages

inductive GroupEvent
  | addToGroup (groupId imgid : Nat)
  | removeFromGroup (imgid : Nat)
  | changeRepresentative (imgid : Nat)
  | duplicate (imgid : Nat) (newversion : Option Nat) (maxVersion : Nat)
  | remove (imgid : Nat) (outcome : LocalCopyOutcome)
  | cacheLoad (imgid : Nat)
  | cacheEvict (imgid : Nat)
deriving DecidableEq, Repr

def GroupedImages.step (g : GroupedImages) : GroupEvent → GroupedImages
  | .addToGroup groupId imgid => g.dtGroupingAddToGroup groupId imgid
  | .removeFromGroup imgid => (g.dtGroupingRemoveFromGroup imgid).1
  | .changeRepresentative imgid => g.dtGroupingChangeRepresentative imgid
  | .duplicate imgid newversion maxVersion =>
      g.dtImageDuplicateWithVersion imgid newversion maxVersion
  | .remove imgid outcome => g.dtImageRemove imgid outcome
  | .cacheLoad imgid => (g.load imgid).1
  | .cacheEvict imgid => g.evict imgid

/-- The images that are named are in the library, and an image is only added to the group of a
current representative. -/
def GroupedImages.Allowed (g : GroupedImages) : GroupEvent → Prop
  | .addToGroup groupId imgid =>
      g.lib.groupOf groupId = some groupId ∧ (g.lib.groupOf imgid).isSome
  | .removeFromGroup imgid => (g.lib.groupOf imgid).isSome
  | .changeRepresentative imgid => (g.lib.groupOf imgid).isSome
  | .duplicate imgid _ _ => (g.lib.groupOf imgid).isSome
  | .remove imgid _ => (g.lib.groupOf imgid).isSome
  | .cacheLoad imgid => (g.lib.groupOf imgid).isSome
  | .cacheEvict _ => True

end DTLite
