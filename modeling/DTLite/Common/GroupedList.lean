import DTLite.Common.GroupLeaders
import Mathlib.Data.Int.CharZero

/-!
# Lists of images with their groups

While groups are collapsed, an action on an image is meant for its whole group:
`dt_grouping_add_grouped_images` appends the other members of each image's group to the list.
-/

namespace DTLite

open Reasoning List Library

structure GroupingGui where
  grouping : Bool
  expandedGroupId : Int
deriving DecidableEq, Repr

variable (gui : Option GroupingGui)

-- There is no `darktable.gui` without a window.
def collapses (group : Int) : Bool :=
  gui.any fun gui => gui.grouping && gui.expandedGroupId != group

namespace GroupedImages

def addGroupedImage (found : GroupedImages × List Nat) (imgid : Nat) : GroupedImages × List Nat :=
  let loaded := found.1.load imgid
  if collapses gui loaded.2 then
    -- `SELECT id FROM main.images WHERE group_id = ?1`
    let members := (loaded.1.lib.images.filter fun img => (img.groupId : Int) = loaded.2).map (·.id)
    (loaded.1, found.2 ++ members.filter (· ≠ imgid))
  else (loaded.1, found.2)

/-- The list is extended in place. -/
def dtGroupingAddGroupedImages (g : GroupedImages) (images : List Nat) : GroupedImages × List Nat :=
  let found := images.foldl (addGroupedImage gui) (g, [])
  (found.1, images ++ found.2)

end GroupedImages

/-- The two images are in one group, which is collapsed. -/
def Library.ShareCollapsed (lib : Library) (i j : Nat) : Prop :=
  lib.groupOf i = lib.groupOf j ∧ (lib.groupOf i).any (fun group => collapses gui group) = true

instance decidableShareCollapsed (gui : Option GroupingGui) (lib : Library) (i j : Nat) :
    Decidable (lib.ShareCollapsed gui i j) :=
  inferInstanceAs (Decidable (_ ∧ _))

def Library.collapsedWith (lib : Library) (i : Nat) : List Nat :=
  match lib.groupOf i with
  | none => []
  | some group => if collapses gui group then lib.othersOf group i else []

section Lists

variable {gui : Option GroupingGui} {lib : Library} {i j : Nat}

theorem Library.mem_collapsedWith :
    j ∈ lib.collapsedWith gui i ↔ lib.ShareCollapsed gui i j ∧ j ≠ i := by
  rw [collapsedWith, ShareCollapsed]
  cases lib.groupOf i with
  | none => simp
  | some group =>
    by_cases hcollapsed : collapses gui group = true
    · simp [hcollapsed, mem_othersOf, eq_comm]
    · simp [hcollapsed]

theorem Library.nodup_collapsedWith : (lib.collapsedWith gui i).Nodup := by
  rw [collapsedWith]
  cases lib.groupOf i with
  | none => exact nodup_nil
  | some group =>
    dsimp only
    split
    · exact lib.images_nodup.sublist (filter_sublist.map _)
    · exact nodup_nil

theorem Library.ShareCollapsed.trans (h : lib.ShareCollapsed gui i j) {k : Nat}
    (h' : lib.ShareCollapsed gui k j) : lib.ShareCollapsed gui i k :=
  ⟨h.1.trans h'.1.symm, h.2⟩

namespace GroupedImages

variable {g : GroupedImages} {images : List Nat}

theorem Coherent.addGroupedImage_eq (h : g.Coherent) (hsome : (g.lib.groupOf i).isSome)
    (found : List Nat) :
    addGroupedImage gui (g, found) i = ((g.load i).1, found ++ g.lib.collapsedWith gui i) := by
  obtain ⟨group, hgroup⟩ := Option.isSome_iff_exists.mp hsome
  rw [addGroupedImage, collapsedWith, hgroup]
  dsimp only
  rw [h.load_snd hgroup]
  split
  · rw [othersOf, filter_map]
    simp [Bool.and_comm]
  · rw [append_nil]

theorem Coherent.foldl_addGroupedImage (h : g.Coherent)
    (hsome : ∀ i ∈ images, (g.lib.groupOf i).isSome) (found : List Nat) :
    (images.foldl (addGroupedImage gui) (g, found)).2 =
      found ++ images.flatMap (g.lib.collapsedWith gui) := by
  induction images generalizing g found with
  | nil => exact (append_nil found).symm
  | cons i images ih =>
    have hi := hsome i mem_cons_self
    rw [foldl_cons, h.addGroupedImage_eq hi, ih (h.load hi), flatMap_cons, append_assoc, load_lib]
    intro j hj
    rw [load_lib]
    exact hsome j (mem_cons_of_mem i hj)

/-- The list has each image once, and the images that are in a collapsed group with one of it,
exactly if no two images of it are in one collapsed group. -/
theorem dtGroupingAddGroupedImages_grouped_iff (gui : Option GroupingGui) (h : g.Coherent)
    (hsome : ∀ i ∈ images, (g.lib.groupOf i).isSome) (hnodup : images.Nodup) :
    ((dtGroupingAddGroupedImages gui g images).2.Nodup ∧
      ∀ j, j ∈ (dtGroupingAddGroupedImages gui g images).2 ↔
        j ∈ images ∨ ∃ i ∈ images, g.lib.ShareCollapsed gui i j) ↔
    ∀ i ∈ images, ∀ j ∈ images, g.lib.ShareCollapsed gui i j → i = j := by
  have hlist : (dtGroupingAddGroupedImages gui g images).2 =
      images ++ images.flatMap (g.lib.collapsedWith gui) := by
    rw [dtGroupingAddGroupedImages, h.foldl_addGroupedImage hsome, nil_append]
  rw [hlist]
  constructor
  · rintro ⟨hlist, -⟩ i hi j hj hshare
    by_contra hne
    -- `j` is in the list itself, and appended as a member of the group of `i`
    have hmem := mem_collapsedWith.mpr ⟨hshare, Ne.symm hne⟩
    exact (nodup_append.mp hlist).2.2 j hj j (mem_flatMap.mpr ⟨i, hi, hmem⟩) rfl
  · intro hapart
    refine ⟨nodup_append.mpr ⟨hnodup, nodup_flatMap.mpr ⟨fun _ _ ↦ nodup_collapsedWith, ?_⟩,
      ?_⟩, ?_⟩
    · refine hnodup.imp_of_mem fun hi hk hne j hj hj' => hne ?_
      have hshare := (mem_collapsedWith.mp hj).1
      exact hapart _ hi _ hk (hshare.trans (mem_collapsedWith.mp hj').1)
    · rintro j hj _ hmem rfl
      obtain ⟨i, hi, hmem⟩ := mem_flatMap.mp hmem
      obtain ⟨hshare, hne⟩ := mem_collapsedWith.mp hmem
      exact hne (hapart i hi j hj hshare).symm
    · intro j
      rw [mem_append, mem_flatMap]
      constructor
      · rintro (hj | ⟨i, hi, hmem⟩)
        · exact .inl hj
        · exact .inr ⟨i, hi, (mem_collapsedWith.mp hmem).1⟩
      · rintro (hj | ⟨i, hi, hshare⟩)
        · exact .inl hj
        · by_cases hne : j = i
          · exact .inl (hne ▸ hi)
          · exact .inr ⟨i, hi, mem_collapsedWith.mpr ⟨hshare, hne⟩⟩

end GroupedImages

end Lists

theorem dtGroupingAddGroupedImages_grouped_pair :
    (pairAndSingle.dtGroupingAddGroupedImages (some ⟨true, -1⟩) [1, 3]).2.Nodup := by
  have hcache : pairAndSingle.Coherent := ⟨fun _ _ _ h => (by cases h), fun _ _ => rfl⟩
  exact ((GroupedImages.dtGroupingAddGroupedImages_grouped_iff _ hcache (by decide)
    (by decide)).mpr (by decide)).1

/-- With both images of the pair in the list, each of them is appended once more. -/
theorem dtGroupingAddGroupedImages_twice :
    (pairAndSingle.dtGroupingAddGroupedImages (some ⟨true, -1⟩) [1, 2]).2 = [1, 2, 2, 1] ∧
      pairAndSingle.lib.ShareCollapsed (some ⟨true, -1⟩) 1 2 := by
  decide

end DTLite
