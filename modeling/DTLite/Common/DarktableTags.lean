import DTLite.Common.TagExport
import DTLite.Reasoning.Runs

/-!
# The table of darktable's own tags

`memory.darktable_tags` is filled by the first query and emptied by `dt_tag_new` for a name that
starts with `darktable|`.  Renaming and removing a tag leave it as it is, and it is filled with
`LIKE`, which takes other cases of the name as well.
-/

namespace DTLite

open Reasoning List TagLibrary

-- `g_strstr_len(name, -1, "darktable|") == name`
def startsDarktable (name : TagText) : Bool := name.take 10 = "darktable|".toList

-- the id for a row whose id is `NULL`
def TagLibrary.nextId (lib : TagLibrary) : Nat := (lib.tags.map TagRow.id).foldl max 0 + 1

variable (lib : TagLibrary)

theorem TagLibrary.nextId_nodup (name : TagText) :
    ((⟨lib.nextId, name, 0, []⟩ :: lib.tags).map TagRow.id).Nodup := by
  refine nodup_cons.mpr ⟨fun hmem => ?_, lib.ids⟩
  exact Nat.not_succ_le_self _ (le_foldl_max.mpr (.inr ⟨_, hmem, Nat.le_refl _⟩))

def dtTagExists (name : TagText) : Bool :=
  lib.tags.any fun row => row.name = name

variable {lib} in
theorem not_mem_names {name : TagText} (h : ¬ dtTagExists lib name) :
    name ∉ lib.tags.map TagRow.name := by
  simpa [dtTagExists] using h

def dtTagNew (name : TagText) : TagLibrary :=
  if h : name = [] ∨ dtTagExists lib name then lib
  else
    { tags := ⟨lib.nextId, name, 0, []⟩ :: lib.tags
      taggedImages := lib.taggedImages
      darktableTags := if startsDarktable name then [] else lib.darktableTags
      ids := lib.nextId_nodup name
      names := nodup_cons.mpr ⟨not_mem_names (not_or.mp h).2, lib.names⟩ }

variable (tagid : Nat)

def TagRow.rename (name : TagText) (row : TagRow) : TagRow :=
  if row.id = tagid then { row with name := name } else row

@[simp] theorem TagRow.rename_id (name : TagText) (row : TagRow) :
    (row.rename tagid name).id = row.id := by
  rw [TagRow.rename]
  split <;> rfl

theorem TagLibrary.rename_names {name : TagText} (h : name ∉ lib.tags.map TagRow.name) :
    ((lib.tags.map (TagRow.rename tagid name)).map TagRow.name).Nodup := by
  rw [map_map]
  have hrows := (pairwise_map.mp lib.ids).and (pairwise_map.mp lib.names)
  refine pairwise_map.mpr (hrows.imp_of_mem ?_)
  intro a b ha hb hab
  -- only one row has the id
  simp only [Function.comp_apply, TagRow.rename]
  grind

def dtTagRename (name : TagText) : TagLibrary :=
  if h : name = [] ∨ dtTagExists lib name then lib
  else
    { lib with
      tags := lib.tags.map (TagRow.rename tagid name)
      ids := by simpa [Function.comp_def] using lib.ids
      names := lib.rename_names tagid (not_mem_names (not_or.mp h).2) }

def dtTagRemove (final : Bool) : TagLibrary :=
  if final then
    { lib with
      tags := lib.tags.filter fun row => row.id ≠ tagid
      taggedImages := lib.taggedImages.filter fun row => row.2 ≠ tagid
      ids := lib.ids.sublist (filter_sublist.map _)
      names := lib.names.sublist (filter_sublist.map _) }
  else lib

inductive TagCall where
  | new (name : TagText)
  | rename (tagid : Nat) (name : TagText)
  | remove (tagid : Nat) (final : Bool)
  /-- any query, which calls `dt_set_darktable_tags` first -/
  | query

def TagLibrary.call : TagCall → TagLibrary
  | .new name => dtTagNew lib name
  | .rename tagid name => dtTagRename lib tagid name
  | .remove tagid final => dtTagRemove lib tagid final
  | .query => { lib with darktableTags := dtSetDarktableTags lib }

/-- The ids of darktable's own tags. -/
def TagLibrary.darktableIds (lib : TagLibrary) : List Nat :=
  (lib.tags.filter fun row => startsDarktable row.name).map TagRow.id

def HoldsDarktableTags (lib : TagLibrary) : Prop := dtSetDarktableTags lib = lib.darktableIds

-- a name that `LIKE` takes has the case of darktable's own
def CaseKept (name : TagText) : Prop := isDarktableTag name = startsDarktable name

/-- No name differs from `darktable|…` in its case only. If the table is filled, no tag with such
a name is removed, and renaming keeps what is such a name and what is not. -/
def TagCall.Safe : TagCall → Prop
  | .new name => CaseKept name
  | .rename tagid name => CaseKept name ∧ (lib.darktableTags = [] ∨
      ∀ row ∈ lib.tags, row.id = tagid → startsDarktable row.name = startsDarktable name)
  | .remove tagid final => final = false ∨ lib.darktableTags = [] ∨
      ∀ row ∈ lib.tags, row.id = tagid → startsDarktable row.name = false
  | .query => True

/-- The table is empty or right. -/
structure TagsKept (lib : TagLibrary) : Prop where
  cases : ∀ row ∈ lib.tags, CaseKept row.name
  table : lib.darktableTags = [] ∨ lib.darktableTags = lib.darktableIds

variable {lib : TagLibrary} {name : TagText} {tagid : Nat}

section

variable (h : TagsKept lib)
include h

theorem TagsKept.holds : HoldsDarktableTags lib := by
  rw [HoldsDarktableTags, dtSetDarktableTags, darktableIds]
  split
  case isTrue => rw [filter_congr h.cases]
  case isFalse hne => exact h.table.resolve_left hne

theorem TagsKept.new (hname : CaseKept name) : TagsKept (dtTagNew lib name) := by
  rw [dtTagNew]
  split
  case isTrue => exact h
  case isFalse =>
    refine ⟨forall_mem_cons.mpr ⟨hname, h.cases⟩, ?_⟩
    by_cases hstart : startsDarktable name = true
    · exact .inl (if_pos hstart)
    · simpa [hstart, darktableIds] using h.table

theorem TagsKept.rename (hsafe : (TagCall.rename tagid name).Safe lib) :
    TagsKept (dtTagRename lib tagid name) := by
  rw [dtTagRename]
  split
  case isTrue => exact h
  case isFalse =>
    refine ⟨forall_mem_map.mpr fun row hrow => ?_, ?_⟩
    · rw [TagRow.rename]
      split
      · exact hsafe.1
      · exact h.cases row hrow
    · rcases hsafe.2 with hempty | hsame
      · exact .inl hempty
      · -- no row changes in what the table says about it
        have hrow : ∀ row ∈ lib.tags,
            startsDarktable (row.rename tagid name).name = startsDarktable row.name := by
          intro row hrow
          rw [TagRow.rename]
          split
          case isTrue hid => exact (hsame row hrow hid).symm
          case isFalse => rfl
        refine h.table.imp_right fun htable => htable.trans ?_
        simp [darktableIds, filter_map, Function.comp_def, filter_congr hrow]

theorem TagsKept.remove {final : Bool}
    (hsafe : (TagCall.remove tagid final).Safe lib) : TagsKept (dtTagRemove lib tagid final) := by
  rw [dtTagRemove]
  split
  case isFalse => exact h
  case isTrue hfinal =>
    refine ⟨fun row hrow => h.cases row (mem_of_mem_filter hrow), ?_⟩
    rcases hsafe with hnot | hempty | hother
    · exact absurd hfinal (by simp [hnot])
    · exact .inl hempty
    · refine h.table.imp_right fun htable => htable.trans ?_
      rw [darktableIds, darktableIds, filter_filter]
      refine congrArg _ (filter_congr fun row hrow => ?_)
      by_cases hid : row.id = tagid
      · simp [hother row hrow hid]
      · simp [hid]

theorem TagsKept.call {c : TagCall} (hsafe : c.Safe lib) :
    TagsKept (lib.call c) := by
  cases c with
  | new name => exact h.new hsafe
  | rename tagid name => exact h.rename hsafe
  | remove tagid final => exact h.remove hsafe
  | query => exact ⟨h.cases, .inr h.holds⟩

end

/-- Along every run of safe calls from an empty table, the table is right when it is asked for. -/
theorem holdsDarktableTags_of_safe (hempty : lib.darktableTags = [])
    (hcases : ∀ row ∈ lib.tags, CaseKept row.name) {calls : List TagCall}
    (h : AllSteps TagLibrary.call (fun lib c => c.Safe lib) lib calls) :
    AllStates TagLibrary.call HoldsDarktableTags lib calls := by
  have hkept : AllStates call TagsKept lib calls :=
    allStates_of_allSteps (fun _ _ hkept => hkept.call) ⟨hcases, .inl hempty⟩ h
  exact hkept.mono fun _ hkept => hkept.holds

def noTags : TagLibrary := ⟨[], [], [], by simp, by simp⟩

theorem holdsDarktableTags_of_rename_remove :
    AllStates TagLibrary.call HoldsDarktableTags noTags
      [.new "darktable|a".toList, .new "b".toList, .query, .rename 1 "darktable|c".toList,
        .rename 2 "d".toList, .remove 2 true, .query] :=
  holdsDarktableTags_of_safe rfl (by simp [noTags])
    ⟨rfl, rfl, trivial, ⟨rfl, .inr (by decide)⟩, ⟨rfl, .inr (by decide)⟩, .inr (.inr (by decide)),
      trivial, trivial⟩

/-- The renamed tag stays in the table. -/
theorem not_holdsDarktableTags_rename :
    let lib := [.new "darktable|a".toList, .query, .rename 1 "b".toList].foldl
      call noTags
    dtSetDarktableTags lib = [1] ∧ lib.darktableIds = [] ∧ ¬ HoldsDarktableTags lib := by
  refine ⟨by decide, by decide, fun h => ?_⟩
  exact absurd (show [1] = [] from h) (by decide)

end DTLite
