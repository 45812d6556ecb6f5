import DTLite.Common.Grouping

/-!
# Every group has its representative

Seen through the ids, a library is a partial map from images to representatives. Each call is one of
the moves that keep such a map led, as long as the cache agrees with the table.
-/

namespace DTLite

open Reasoning List Option Function Library GroupedImages

namespace Library

variable {lib : Library}

/-- The others of a group that loses its representative follow the first of them. -/
def removeFromGroup (lib : Library) (imgid : Nat) : Library :=
  if lib.groupOf imgid = some imgid then
    let others := lib.othersOf imgid imgid
    others.foldl (fun lib other => lib.update other (.groupId (others.headD 0))) lib
  else lib.update imgid (.groupId imgid)

theorem groupOf_update_of_isSome {imgid : Nat} (hsome : (lib.groupOf imgid).isSome) (group : Nat) :
    (lib.update imgid (.groupId group)).groupOf =
      Function.update lib.groupOf imgid (some group) := by
  funext j
  obtain ⟨old, hold⟩ := isSome_iff_exists.mp hsome
  rw [groupOf_update]
  by_cases hj : j = imgid
  · subst hj
    rw [if_pos rfl, hold, map_some, update_self]
  · rw [if_neg hj, update_of_ne hj]

theorem isSome_groupOf_update {id : Nat} {ids : List Nat}
    (hsome : ∀ other ∈ id :: ids, (lib.groupOf other).isSome) (group : Nat) :
    ∀ other ∈ ids, ((lib.update id (.groupId group)).groupOf other).isSome := by
  intro other hother
  rw [groupOf_update_of_isSome (hsome id mem_cons_self)]
  by_cases heq : other = id
  · rw [heq, update_self, isSome_some]
  · rw [update_of_ne heq]
    exact hsome other (mem_cons_of_mem id hother)

theorem groupOf_updates {ids : List Nat} (hsome : ∀ id ∈ ids, (lib.groupOf id).isSome)
    (group : Nat) :
    (ids.foldl (fun lib other => lib.update other (.groupId group)) lib).groupOf =
      fun j => if j ∈ ids then some group else lib.groupOf j := by
  induction ids generalizing lib with
  | nil => simp
  | cons id ids ih =>
    have hgroups := groupOf_update_of_isSome (hsome id mem_cons_self) group
    rw [foldl_cons, ih (isSome_groupOf_update hsome group), hgroups]
    funext j
    by_cases hj : j ∈ ids
    · rw [if_pos hj, if_pos (mem_cons_of_mem id hj)]
    · rw [if_neg hj]
      by_cases heq : j = id
      · rw [heq, update_self, if_pos mem_cons_self]
      · rw [update_of_ne heq, if_neg (by simp [heq, hj])]

variable {group imgid j : Nat}

theorem mem_othersOf : j ∈ lib.othersOf group imgid ↔ lib.groupOf j = some group ∧ j ≠ imgid := by
  rw [othersOf, List.mem_map, groupOf_eq_some_iff]
  constructor
  · rintro ⟨img, hmem, rfl⟩
    obtain ⟨hmem, hp⟩ := mem_filter.mp hmem
    have hp : img.groupId = group ∧ img.id ≠ imgid := by simpa using hp
    exact ⟨⟨img, hmem, rfl, hp.1⟩, hp.2⟩
  · rintro ⟨⟨img, hmem, rfl, hgroup⟩, hne⟩
    exact ⟨img, mem_filter.mpr ⟨hmem, by simp [hgroup, hne]⟩, rfl⟩

theorem isSome_of_mem_othersOf (h : j ∈ lib.othersOf group imgid) : (lib.groupOf j).isSome := by
  rw [(mem_othersOf.mp h).1, isSome_some]

theorem headD_mem_othersOf (h : j ∈ lib.othersOf group imgid) :
    (lib.othersOf group imgid).headD 0 ∈ lib.othersOf group imgid := by
  cases hothers : lib.othersOf group imgid with
  | nil => simp [hothers] at h
  | cons other others => exact mem_cons_self

theorem leaves_removeFromGroup (hled : Led lib.groupOf) {imgid : Nat}
    (hsome : (lib.groupOf imgid).isSome) :
    Leaves lib.groupOf (lib.removeFromGroup imgid).groupOf imgid := by
  obtain ⟨group, hgroup⟩ := isSome_iff_exists.mp hsome
  rw [removeFromGroup]
  by_cases hleader : lib.groupOf imgid = some imgid
  · rw [if_pos hleader, groupOf_updates fun j => isSome_of_mem_othersOf]
    exact hled.leaves_leader hleader (fun j => mem_othersOf) fun j => headD_mem_othersOf
  · rw [if_neg hleader, groupOf_update_of_isSome hsome]
    apply hled.leaves_follower hgroup
    rintro rfl
    exact hleader hgroup

end Library

namespace GroupedImages

variable {g : GroupedImages}

structure Coherent (g : GroupedImages) : Prop where
  same : ∀ id v group, g.cached id = some v → g.lib.groupOf id = some group → v = group
  fresh : ∀ id, g.lastId < id → g.cached id = none

variable {imgid : Nat}

theorem le_lastId (h : (g.lib.groupOf imgid).isSome) : imgid ≤ g.lastId := by
  obtain ⟨group, hgroup⟩ := isSome_iff_exists.mp h
  obtain ⟨img, hmem, rfl, -⟩ := groupOf_eq_some_iff.mp hgroup
  exact g.lastId_ok img hmem

theorem groupOf_fresh (h : g.lastId < imgid) : g.lib.groupOf imgid = none := by
  rw [← not_isSome_iff_eq_none]
  intro hsome
  have hle := le_lastId hsome
  omega

@[simp] theorem load_lib (imgid : Nat) : (g.load imgid).1.lib = g.lib := by
  rw [load]
  split <;> rfl

theorem Coherent.load_snd (h : g.Coherent) {group : Nat}
    (hgroup : g.lib.groupOf imgid = some group) : (g.load imgid).2 = group := by
  rw [load]
  cases hcached : g.cached imgid with
  | some v => exact h.same imgid v group hcached hgroup
  | none => simp [hgroup]

theorem Coherent.fresh_update (h : g.Coherent) (hsome : (g.lib.groupOf imgid).isSome)
    (v : Option Int) {id : Nat} (hlt : g.lastId < id) : update g.cached imgid v id = none := by
  have hle := le_lastId hsome
  exact (update_of_ne (by omega) ..).trans (h.fresh id hlt)

theorem Coherent.load (h : g.Coherent) (hsome : (g.lib.groupOf imgid).isSome) :
    (g.load imgid).1.Coherent := by
  rw [GroupedImages.load]
  split
  · exact h
  · constructor
    · intro id v group hcached hgroup
      by_cases hid : id = imgid
      · subst hid
        simpa [hgroup] using hcached.symm
      · exact h.same id v group (by simpa [hid] using hcached) hgroup
    · exact fun id hlt => h.fresh_update hsome _ hlt

theorem Coherent.evict (h : g.Coherent) (imgid : Nat) : (g.evict imgid).Coherent := by
  constructor
  · intro id v group hcached hgroup
    by_cases hid : id = imgid
    · subst hid
      simp [GroupedImages.evict] at hcached
    · exact h.same id v group (by simpa [GroupedImages.evict, hid] using hcached) hgroup
  · intro id hlt
    by_cases hid : id = imgid
    · subst hid
      exact update_self ..
    · exact (update_of_ne hid ..).trans (h.fresh id hlt)

theorem groupOf_setGroup (hsome : (g.lib.groupOf imgid).isSome) (group : Nat) :
    (g.setGroup imgid group).lib.groupOf = update g.lib.groupOf imgid (some group) :=
  groupOf_update_of_isSome hsome group

theorem Coherent.setGroup (h : g.Coherent) (hsome : (g.lib.groupOf imgid).isSome)
    (group : Nat) : (g.setGroup imgid group).Coherent := by
  constructor
  · intro id v group' hcached hgroup
    rw [groupOf_setGroup hsome] at hgroup
    by_cases hid : id = imgid
    · subst hid
      rw [update_self, some.injEq] at hgroup
      simp only [GroupedImages.setGroup, update_self, some.injEq] at hcached
      rw [← hgroup, hcached]
    · rw [update_of_ne hid] at hgroup
      exact h.same id v group' ((update_of_ne hid ..).symm.trans hcached) hgroup
  · exact fun id hlt => h.fresh_update hsome _ hlt

theorem groupOf_touch (h : g.Coherent) (hsome : (g.lib.groupOf imgid).isSome) :
    (g.touch imgid).lib.groupOf = g.lib.groupOf := by
  obtain ⟨group, hgroup⟩ := isSome_iff_exists.mp hsome
  rw [touch, groupOf_setGroup (by simpa using hsome), load_lib, h.load_snd hgroup,
    Int.toNat_natCast, ← hgroup, update_eq_self]

theorem Coherent.touch (h : g.Coherent) (hsome : (g.lib.groupOf imgid).isSome) :
    (g.touch imgid).Coherent :=
  (h.load hsome).setGroup (by simpa using hsome) _

theorem setGroups_lib (ids : List Nat) (group : Nat) :
    (ids.foldl (fun g other => g.setGroup other group) g).lib =
      ids.foldl (fun lib other => lib.update other (.groupId group)) g.lib := by
  induction ids generalizing g with
  | nil => rfl
  | cons id ids ih => exact ih

theorem Coherent.setGroups (h : g.Coherent) {ids : List Nat}
    (hsome : ∀ id ∈ ids, (g.lib.groupOf id).isSome) (group : Nat) :
    (ids.foldl (fun g other => g.setGroup other group) g).Coherent := by
  induction ids generalizing g with
  | nil => exact h
  | cons id ids ih =>
    exact ih (h.setGroup (hsome id mem_cons_self) group)
      (isSome_groupOf_update hsome group)

theorem updateOthers_eq (h : ∀ j, g.lib.groupOf j = some imgid → j = imgid) (newGroup : Nat) :
    (g.updateOthers newGroup imgid imgid).lib = g.lib := by
  apply updateWhere_of_none
  intro img hmem hp
  have hp : img.groupId = imgid ∧ img.id ≠ imgid := by simpa using hp
  exact hp.2 (h img.id (groupOf_eq_some_iff.mpr ⟨img, hmem, rfl, hp.1⟩))

/-- With a cache that agrees with the table the code does to the table what it is meant to. -/
theorem removeFromGroup_refines (h : g.Coherent) (hled : Led g.lib.groupOf)
    (hsome : (g.lib.groupOf imgid).isSome) :
    (g.dtGroupingRemoveFromGroup imgid).1.lib = g.lib.removeFromGroup imgid ∧
      (g.dtGroupingRemoveFromGroup imgid).1.Coherent := by
  obtain ⟨group, hgroup⟩ := isSome_iff_exists.mp hsome
  have hload := h.load hsome
  have hleaves := leaves_removeFromGroup hled hsome
  rw [removeFromGroup, hgroup] at hleaves
  rw [dtGroupingRemoveFromGroup, h.load_snd hgroup, removeFromGroup, hgroup]
  by_cases hleader : group = imgid
  · subst hleader
    rw [if_pos rfl] at hleaves
    rw [if_pos rfl, if_pos rfl, load_lib]
    set others := g.lib.othersOf group group
    have hloop := setGroups_lib (g := (g.load group).1) others (others.headD 0)
    rw [load_lib] at hloop
    rw [← hloop] at hleaves ⊢
    have hexists : ∀ j ∈ others, ((g.load group).1.lib.groupOf j).isSome := by
      intro j hj
      rw [load_lib]
      exact isSome_of_mem_othersOf hj
    have hcoherent := hload.setGroups hexists (others.headD 0)
    have hsame := updateOthers_eq hleaves.alone.none (others.headD 0)
    refine ⟨hsame, ?_, hcoherent.fresh⟩
    rw [hsame]
    exact hcoherent.same
  · have hne : ¬ (group : Int) = imgid := by omega
    have hne' : ¬ some group = some imgid := by simpa using hleader
    rw [if_neg hne, if_neg hne']
    refine ⟨?_, hload.setGroup (by rwa [load_lib]) imgid⟩
    show (g.load imgid).1.lib.update imgid _ = _
    rw [load_lib]

theorem removeFromGroup_spec (h : g.Coherent) (hled : Led g.lib.groupOf)
    (hsome : (g.lib.groupOf imgid).isSome) :
    (g.dtGroupingRemoveFromGroup imgid).1.Coherent ∧
      Leaves g.lib.groupOf (g.dtGroupingRemoveFromGroup imgid).1.lib.groupOf imgid := by
  obtain ⟨hlib, hcoherent⟩ := removeFromGroup_refines h hled hsome
  rw [hlib]
  exact ⟨hcoherent, leaves_removeFromGroup hled hsome⟩

/-! ## The calls -/

structure Sound (g : GroupedImages) : Prop where
  coherent : g.Coherent
  led : Led g.lib.groupOf

theorem Sound.removeFromGroup (h : g.Sound) (hsome : (g.lib.groupOf imgid).isSome) :
    (g.dtGroupingRemoveFromGroup imgid).1.Sound :=
  have hspec := removeFromGroup_spec h.coherent h.led hsome
  ⟨hspec.1, hspec.2.led⟩

theorem Sound.addToGroup (h : g.Sound) {groupId : Nat}
    (hgroup : g.lib.groupOf groupId = some groupId) (hsome : (g.lib.groupOf imgid).isSome) :
    (g.dtGroupingAddToGroup groupId imgid).Sound := by
  obtain ⟨hcoherent, hleaves⟩ := removeFromGroup_spec h.coherent h.led hsome
  have hsome' := (hleaves.isSome imgid).trans hsome
  constructor
  · exact hcoherent.setGroup hsome' groupId
  · rw [dtGroupingAddToGroup, groupOf_setGroup hsome']
    exact hleaves.led.join hleaves.alone (hleaves.leaders groupId hgroup)

theorem Sound.changeRepresentative (h : g.Sound) (hsome : (g.lib.groupOf imgid).isSome) :
    (g.dtGroupingChangeRepresentative imgid).Sound := by
  obtain ⟨group, hgroup⟩ := isSome_iff_exists.mp hsome
  have hload := h.coherent.load hsome
  rw [dtGroupingChangeRepresentative, h.coherent.load_snd hgroup]
  set loaded := (g.load imgid).1 with hloaded
  have hlib : loaded.lib = g.lib := load_lib imgid
  set members := (loaded.lib.images.filter fun img => (img.groupId : Int) = group).map (·.id)
    with hmembers
  have hmem : ∀ j, j ∈ members ↔ g.lib.groupOf j = some group := by
    intro j
    simp only [hmembers, hlib, List.mem_map, mem_filter, decide_eq_true_eq, Int.natCast_inj,
      groupOf_eq_some_iff]
    constructor
    · rintro ⟨img, ⟨himg, hgroup⟩, hid⟩
      exact ⟨img, himg, hid, hgroup⟩
    · rintro ⟨img, himg, hid, hgroup⟩
      exact ⟨img, ⟨himg, hgroup⟩, hid⟩
  have hexists : ∀ j ∈ members, (loaded.lib.groupOf j).isSome := by
    intro j hj
    rw [hlib, (hmem j).mp hj, isSome_some]
  refine ⟨hload.setGroups hexists imgid, ?_⟩
  rw [setGroups_lib, groupOf_updates hexists, hlib]
  apply h.led.move (fun j => (hmem j).mp) ((hmem imgid).mpr hgroup)
  intro j hj hnot
  exact absurd ((hmem j).mpr hj) hnot

theorem groupOf_insertCopy (img : Image) (version : Nat) :
    (g.insertCopy img version).lib.groupOf =
      update g.lib.groupOf (g.lastId + 1) (some img.groupId) := by
  rw [insertCopy, groupOf_insert]

theorem Sound.insertCopy (h : g.Sound) {img : Image} (hmem : img ∈ g.lib.images) (version : Nat) :
    (g.insertCopy img version).Sound := by
  have hgroups := groupOf_insertCopy (g := g) img version
  have hfresh : g.lib.groupOf (g.lastId + 1) = none := groupOf_fresh (Nat.lt_succ_self _)
  have himg : g.lib.groupOf img.id = some img.groupId :=
    groupOf_eq_some_iff.mpr ⟨img, hmem, rfl, rfl⟩
  refine ⟨⟨?_, ?_⟩, ?_⟩
  · intro id v group hcached hgroup
    rw [hgroups] at hgroup
    by_cases hid : id = g.lastId + 1
    · have hnone : g.cached id = none := h.coherent.fresh id (by omega)
      exact absurd (hnone.symm.trans hcached) (by simp)
    · rw [update_of_ne hid] at hgroup
      exact h.coherent.same id v group hcached hgroup
  · intro id hlt
    have hlt : g.lastId + 1 < id := hlt
    exact h.coherent.fresh id (by omega)
  · rw [hgroups]
    exact h.led.insert hfresh (h.led _ _ himg)

theorem groupOf_isSome_of_lastCopy {img : Image} {p : Image → Bool} {newid : Nat}
    (h : g.lastCopy img p = some newid) : (g.lib.groupOf newid).isSome := by
  obtain ⟨copy, hcopy, rfl⟩ := List.mem_map.mp (max?_eq_some_iff.mp h).1
  have hgroup : g.lib.groupOf copy.id = some copy.groupId :=
    groupOf_eq_some_iff.mpr ⟨copy, (mem_filter.mp hcopy).1, rfl, rfl⟩
  rw [hgroup, isSome_some]

section

variable (h : g.Sound)
include h

section

variable (hsome : (g.lib.groupOf imgid).isSome)
include hsome

theorem Sound.imageDuplicate (newversion : Option Nat) (maxVersion : Nat) :
    (g.imageDuplicateWithVersion imgid newversion maxVersion).1.Sound ∧
      ((g.imageDuplicateWithVersion imgid newversion maxVersion).1.lib.groupOf imgid).isSome ∧
      ∀ newid, (g.imageDuplicateWithVersion imgid newversion maxVersion).2 = some newid →
        ((g.imageDuplicateWithVersion imgid newversion maxVersion).1.lib.groupOf newid).isSome := by
  rw [imageDuplicateWithVersion]
  cases himage : g.lib.image? imgid with
  | none => exact ⟨h, hsome, fun newid hnew => by simp at hnew⟩
  | some img =>
    have hmem : img ∈ g.lib.images := (image?_eq_some_iff.mp himage).1
    dsimp only
    split
    · rename_i newid hfound
      obtain ⟨version, -, hcopy⟩ := bind_eq_some_iff.mp hfound
      refine ⟨h, hsome, fun newid' hnew => ?_⟩
      cases hnew
      exact groupOf_isSome_of_lastCopy hcopy
    · refine ⟨h.insertCopy hmem _, ?_, fun newid => groupOf_isSome_of_lastCopy⟩
      have hle := le_lastId hsome
      rw [groupOf_insertCopy, update_of_ne (by omega)]
      exact hsome

theorem Sound.touch : (g.touch imgid).Sound :=
  ⟨h.coherent.touch hsome, by rw [groupOf_touch h.coherent hsome]; exact h.led⟩

theorem Sound.load :
    (g.load imgid).1.Sound :=
  ⟨h.coherent.load hsome, by rw [load_lib]; exact h.led⟩

end

theorem Sound.duplicate {imgid : Nat} (hsome : (g.lib.groupOf imgid).isSome)
    (newversion : Option Nat) (maxVersion : Nat) :
    (g.dtImageDuplicateWithVersion imgid newversion maxVersion).Sound := by
  obtain ⟨hsound, hstill, hnewid⟩ := h.imageDuplicate hsome newversion maxVersion
  rw [dtImageDuplicateWithVersion]
  split
  · rename_i g' heq
    rw [heq] at hsound
    exact hsound
  · rename_i g' newid heq
    rw [heq] at hsound hstill hnewid
    dsimp only at hsound hstill hnewid ⊢
    have hnew := hnewid newid rfl
    have hgroups := groupOf_touch hsound.coherent hnew
    have htouched := hsound.touch hnew
    have hsome' : ((g'.touch newid).lib.groupOf imgid).isSome := by rwa [hgroups]
    obtain ⟨group, hgroup⟩ := isSome_iff_exists.mp hsome'
    rw [htouched.coherent.load_snd hgroup]
    apply (htouched.load hsome').addToGroup
    · rw [load_lib]
      exact htouched.led _ _ hgroup
    · rw [load_lib, hgroups]
      exact hnew

theorem Sound.evict (imgid : Nat) : (g.evict imgid).Sound := ⟨h.coherent.evict imgid, h.led⟩

theorem Sound.localCopyReset (hsome : (g.lib.groupOf imgid).isSome) (outcome : LocalCopyOutcome) :
    (g.dtImageLocalCopyReset imgid outcome).Sound ∧
      ((g.dtImageLocalCopyReset imgid outcome).lib.groupOf imgid).isSome := by
  have hload : (g.load imgid).1.Sound ∧ ((g.load imgid).1.lib.groupOf imgid).isSome :=
    ⟨h.load hsome, by rwa [load_lib]⟩
  cases outcome with
  | none => exact hload
  | refused => exact hload
  | reset =>
    refine ⟨h.touch hsome, ?_⟩
    rw [dtImageLocalCopyReset, groupOf_touch h.coherent hsome]
    exact hsome

theorem Sound.delete (halone : Alone g.lib.groupOf imgid) :
    (g.delete imgid).Sound := by
  have hgroups : (g.delete imgid).lib.groupOf = update g.lib.groupOf imgid none := by
    funext j
    rw [GroupedImages.delete, groupOf_delete, update_apply]
  refine ⟨⟨fun id v group hcached hgroup => ?_, h.coherent.fresh⟩, ?_⟩
  · rw [hgroups] at hgroup
    by_cases hid : id = imgid
    · subst hid
      rw [update_self] at hgroup
      cases hgroup
    · rw [update_of_ne hid] at hgroup
      exact h.coherent.same id v group hcached hgroup
  · rw [hgroups]
    exact h.led.erase halone

theorem Sound.remove (hsome : (g.lib.groupOf imgid).isSome)
    (outcome : LocalCopyOutcome) : (g.dtImageRemove imgid outcome).Sound := by
  obtain ⟨hreset, hsome'⟩ := h.localCopyReset hsome outcome
  rw [dtImageRemove]
  by_cases hrefused : outcome = .refused
  · rw [if_pos hrefused]
    exact hreset
  · rw [if_neg hrefused]
    have hevicted := (hreset.load hsome').evict imgid
    have hstill : ((((g.dtImageLocalCopyReset imgid outcome).load imgid).1.evict
        imgid).lib.groupOf imgid).isSome := by
      rw [GroupedImages.evict, load_lib]
      exact hsome'
    obtain ⟨hcoherent, hleaves⟩ := removeFromGroup_spec hevicted.coherent hevicted.led hstill
    exact Sound.delete ⟨hcoherent, hleaves.led⟩ hleaves.alone

theorem Sound.step {event : GroupEvent} (hallowed : g.Allowed event) :
    (g.step event).Sound := by
  cases event with
  | addToGroup groupId imgid => exact h.addToGroup hallowed.1 hallowed.2
  | removeFromGroup imgid => exact h.removeFromGroup hallowed
  | changeRepresentative imgid => exact h.changeRepresentative hallowed
  | duplicate imgid newversion maxVersion => exact h.duplicate hallowed newversion maxVersion
  | remove imgid outcome => exact h.remove hallowed outcome
  | cacheLoad imgid => exact h.load hallowed
  | cacheEvict imgid => exact h.evict imgid

end

/-- Over every sequence of the calls, every image's `group_id` names an image of the library that
represents itself. -/
theorem groupsLed_run (g : GroupedImages) (hcache : g.Coherent) (hled : g.lib.GroupsLed)
    (events : List GroupEvent) (hallowed : AllSteps step Allowed g events) :
    AllStates step (fun g => g.lib.GroupsLed) g events := by
  have hsound : g.Sound := ⟨hcache, groupsLed_iff.mp hled⟩
  have hstates := allStates_of_allSteps (fun g event h => h.step) hsound hallowed
  exact hstates.mono fun g h => groupsLed_iff.mpr h.led

end GroupedImages

-- The image 2 follows the image 1, and the image 3 is by itself.
def pairAndSingle : GroupedImages where
  lib :=
    { images := [sampleA false, { sampleImage 2 "D.raw" false (by decide) with groupId := 1 },
        sampleImage 3 "E.raw" false (by decide)]
      filmRolls := []
      images_nodup := by decide
      filmRolls_nodup := by decide }
  cached _ := none
  lastId := 3
  lastId_ok := by decide

theorem groupsLed_run_pair :
    AllStates GroupedImages.step (fun g => g.lib.GroupsLed) pairAndSingle
      [.addToGroup 1 3, .changeRepresentative 2, .duplicate 3 none 0, .cacheEvict 2,
        .remove 2 .none, .removeFromGroup 1] := by
  apply groupsLed_run
  · constructor
    · intro id v group h
      cases h
    · intro id _
      rfl
  · show ∀ img ∈ pairAndSingle.lib.images, _
    decide
  · simp only [AllSteps, Allowed]
    decide

/-- The image cache has the groups that the library has. -/
theorem GroupedImages.coherent_run {g : GroupedImages} (h : g.Sound) {events : List GroupEvent}
    (hallowed : AllSteps step Allowed g events) : AllStates step Coherent g events :=
  (allStates_of_allSteps (fun _ _ h => h.step) h hallowed).mono fun _ h => h.coherent

theorem coherent_run_pair :
    AllStates GroupedImages.step Coherent pairAndSingle [.addToGroup 1 3, .remove 1 .none] := by
  refine coherent_run ⟨⟨by rintro _ _ _ ⟨⟩, fun _ _ => rfl⟩, groupsLed_iff.mp ?_⟩
    ⟨⟨rfl, rfl⟩, rfl, trivial⟩
  unfold GroupsLed
  decide

end DTLite
