import DTLite.Common.DarktableTags
import DTLite.Reasoning.Table

/-!
# The tags in XMP data

`_exif_import_tags` attaches the tags that the strings of an array name, with commas between the
tags of one string.  The variable for the id of a tag is cleared for each string, but not for each
tag.
-/

namespace DTLite

open Reasoning List TagLibrary

namespace TagLibrary

variable (lib : TagLibrary) (tag : TagText)

-- `SELECT id FROM data.tags WHERE name = ?1`
def tagId : Option Nat := (lib.tags.find? fun row => row.name = tag).map TagRow.id

-- `INSERT INTO data.tags (id, name) VALUES (NULL, ?1)`; no two tags have one name
def insertTag : TagLibrary :=
  if h : dtTagExists lib tag then lib
  else
    { lib with
      tags := ⟨lib.nextId, tag, 0, []⟩ :: lib.tags
      ids := lib.nextId_nodup tag
      names := nodup_cons.mpr ⟨not_mem_names h, lib.names⟩ }

-- `INSERT INTO main.tagged_images`; a tag is attached to an image once
def attachTag (imgid : Int) (tagid : Nat) : TagLibrary :=
  { lib with taggedImages := lib.taggedImages.insert (imgid, tagid) }

abbrev Has : Prop := ∃ row ∈ lib.tags, row.name = tag

/-- The image has a tag of this name. -/
abbrev Attached (imgid : Int) : Prop :=
  ∃ row ∈ lib.tags, row.name = tag ∧ (imgid, row.id) ∈ lib.taggedImages

end TagLibrary

/-- The tables, and `tagid`. -/
structure TagImport where
  lib : TagLibrary
  tagid : Int

namespace TagImport

variable (imgid : Int) (s : TagImport) (tag : TagText)

def lookUp : TagImport :=
  { s with tagid := ((s.lib.tagId tag).map Int.ofNat).getD s.tagid }

-- "create this tag […], retry"
def findTag : Nat → TagImport → TagImport
  | 0, s => s
  | k + 1, s =>
      let s := s.lookUp tag
      if 0 < s.tagid then s else findTag k { s with lib := s.lib.insertTag tag }

-- "check if tag is available, get its id", and "associate image and tag"
def importTag : TagImport :=
  let s := findTag tag 2 s
  { s with lib := s.lib.attachTag imgid s.tagid.toNat }

end TagImport

def importSubject (imgid : Int) (lib : TagLibrary) (subject : TagText) : TagLibrary :=
  ((subject.splitOn ',').foldl (TagImport.importTag imgid) ⟨lib, -1⟩).lib

def exifImportTags (imgid : Int) (lib : TagLibrary) (subjects : List TagText) : TagLibrary :=
  subjects.foldl (importSubject imgid) lib

variable {lib : TagLibrary} {imgid : Int} {tag : TagText} {firsts parts : List TagText}
  {s : TagImport} {row : TagRow}

/-- What has come of the tags `parts`, of which `firsts` were the first ones of their strings. -/
structure Importing (imgid : Int) (lib : TagLibrary) (firsts parts : List TagText)
    (s : TagImport) : Prop where
  positive : ∀ row ∈ s.lib.tags, 0 < row.id
  names : ∀ tag, s.lib.Has tag ↔ lib.Has tag ∨ tag ∈ firsts
  tagged : ∀ row ∈ s.lib.tags, (imgid, row.id) ∈ s.lib.taggedImages ↔
    (imgid, row.id) ∈ lib.taggedImages ∨ row.name ∈ parts
  current : 0 < s.tagid → ∃ row ∈ s.lib.tags, row.id = s.tagid ∧ row.name ∈ parts

namespace TagImport

theorem lookUp_of_mem (hrow : row ∈ s.lib.tags) : s.lookUp row.name = ⟨s.lib, row.id⟩ := by
  have hfind : s.lib.tags.find? (fun r => r.name = row.name) = some row :=
    (find?_key_eq_some_iff s.lib.names).mpr ⟨hrow, rfl⟩
  rw [lookUp, tagId, hfind]
  rfl

theorem lookUp_of_missing (hmissing : ¬ s.lib.Has tag) : s.lookUp tag = s := by
  have hfind : s.lib.tags.find? (fun r => r.name = tag) = none :=
    find?_eq_none.mpr fun r hr hname => hmissing ⟨r, hr, by simpa using hname⟩
  rw [lookUp, tagId, hfind]
  rfl

theorem findTag_of_found {s' : TagImport} {k : Nat} (hfound : s.lookUp tag = s')
    (hpos : 0 < s'.tagid) : findTag tag (k + 1) s = s' := by
  subst hfound
  exact if_pos hpos

theorem importTag_of_mem (hrow : row ∈ s.lib.tags) (hpos : 0 < row.id) :
    s.importTag imgid row.name = ⟨s.lib.attachTag imgid row.id, row.id⟩ := by
  rw [importTag, findTag_of_found (lookUp_of_mem hrow) (Int.natCast_pos.mpr hpos)]
  rfl

/-- With the id of another tag in the variable, a tag that is missing is not created. -/
theorem importTag_of_stale (hmissing : ¬ s.lib.Has tag) (hpos : 0 < s.tagid) :
    s.importTag imgid tag = ⟨s.lib.attachTag imgid s.tagid.toNat, s.tagid⟩ := by
  rw [importTag, findTag_of_found (lookUp_of_missing hmissing) hpos]

theorem tags_insertTag (hmissing : ¬ lib.Has tag) :
    (lib.insertTag tag).tags = ⟨lib.nextId, tag, 0, []⟩ :: lib.tags ∧
      (lib.insertTag tag).taggedImages = lib.taggedImages := by
  have hnot : ¬ dtTagExists lib tag := by simpa [dtTagExists, Has] using hmissing
  rw [insertTag, dif_neg hnot]
  exact ⟨rfl, rfl⟩

theorem mem_insertTag (hmissing : ¬ lib.Has tag) :
    (⟨lib.nextId, tag, 0, []⟩ : TagRow) ∈ (lib.insertTag tag).tags :=
  (tags_insertTag hmissing).1 ▸ mem_cons_self

theorem importTag_of_missing (hmissing : ¬ s.lib.Has tag) (hneg : ¬ 0 < s.tagid) :
    s.importTag imgid tag =
      ⟨(s.lib.insertTag tag).attachTag imgid s.lib.nextId, s.lib.nextId⟩ := by
  have hnew := mem_insertTag hmissing
  have hretry : findTag tag 2 s = findTag tag 1 ⟨s.lib.insertTag tag, s.tagid⟩ := by
    rw [findTag, lookUp_of_missing hmissing]
    exact if_neg hneg
  have hfound : lookUp ⟨s.lib.insertTag tag, s.tagid⟩ tag = ⟨s.lib.insertTag tag, s.lib.nextId⟩ :=
    @lookUp_of_mem ⟨s.lib.insertTag tag, s.tagid⟩ _ hnew
  rw [importTag, hretry, findTag_of_found hfound (Int.natCast_pos.mpr (Nat.succ_pos _))]
  rfl

end TagImport

namespace Importing

open TagImport

/-- When the tag `row` has just been attached. -/
theorem of_attach {lib' : TagLibrary} (hrow : row ∈ lib'.tags) (hpart : row.name ∈ parts)
    (hpos : ∀ row ∈ lib'.tags, 0 < row.id)
    (hnames : ∀ tag, lib'.Has tag ↔ lib.Has tag ∨ tag ∈ firsts)
    (htagged : ∀ r ∈ lib'.tags, r ≠ row → ((imgid, r.id) ∈ lib'.taggedImages ↔
      (imgid, r.id) ∈ lib.taggedImages ∨ r.name ∈ parts)) :
    Importing imgid lib firsts parts ⟨lib'.attachTag imgid row.id, row.id⟩ where
  positive := hpos
  names := hnames
  tagged r hr := by
    refine mem_insert_iff.trans ?_
    by_cases heq : r = row
    · rw [heq]
      exact iff_of_true (.inl rfl) (.inr hpart)
    · have hid : r.id ≠ row.id := fun hid => heq (inj_on_of_nodup_map lib'.ids hr hrow hid)
      rw [Prod.mk.injEq, and_iff_right rfl, or_iff_right hid]
      exact htagged r hr heq
  current _ := ⟨row, hrow, rfl, hpart⟩

variable (h : Importing imgid lib firsts parts s)
include h

theorem tagged_append (hrow : row ∈ s.lib.tags) (hne : row.name ≠ tag) :
    (imgid, row.id) ∈ s.lib.taggedImages ↔
      (imgid, row.id) ∈ lib.taggedImages ∨ row.name ∈ parts ++ [tag] := by
  rw [h.tagged row hrow, mem_append, mem_singleton, or_iff_left hne]

theorem of_mem {firsts' : List TagText} (hrow : row ∈ s.lib.tags)
    (hnames : ∀ tag, s.lib.Has tag ↔ lib.Has tag ∨ tag ∈ firsts') :
    Importing imgid lib firsts' (parts ++ [row.name]) (s.importTag imgid row.name) ∧
      0 < (s.importTag imgid row.name).tagid := by
  rw [importTag_of_mem hrow (h.positive row hrow)]
  refine ⟨of_attach hrow mem_concat_self h.positive hnames fun r hr hne => ?_,
    Int.natCast_pos.mpr (h.positive row hrow)⟩
  exact h.tagged_append hr fun hname => hne (inj_on_of_nodup_map s.lib.names hr hrow hname)

/-- After the first tag of a string, one that is missing leaves the tags as they are. -/
theorem later (hpos : 0 < s.tagid) (tag : TagText) :
    Importing imgid lib firsts (parts ++ [tag]) (s.importTag imgid tag) ∧
      0 < (s.importTag imgid tag).tagid := by
  by_cases hhas : s.lib.Has tag
  · obtain ⟨row, hrow, rfl⟩ := hhas
    exact h.of_mem hrow h.names
  · obtain ⟨row, hrow, hid, hpart⟩ := h.current hpos
    rw [importTag_of_stale hhas hpos, ← hid, Int.toNat_natCast]
    refine ⟨of_attach hrow (mem_append_left _ hpart) h.positive h.names fun r hr _ => ?_,
      hid ▸ hpos⟩
    exact h.tagged_append hr fun hname => hhas ⟨r, hr, hname⟩

theorem first (hneg : ¬ 0 < s.tagid) (tag : TagText) :
    Importing imgid lib (firsts ++ [tag]) (parts ++ [tag]) (s.importTag imgid tag) ∧
      0 < (s.importTag imgid tag).tagid := by
  by_cases hhas : s.lib.Has tag
  · have hnames : ∀ t, s.lib.Has t ↔ lib.Has t ∨ t ∈ firsts ++ [tag] := by
      intro t
      rw [mem_append, ← or_assoc, ← h.names, mem_singleton]
      exact ⟨.inl, fun ht => ht.elim id fun heq => heq ▸ hhas⟩
    obtain ⟨row, hrow, rfl⟩ := hhas
    exact h.of_mem hrow hnames
  · obtain ⟨htags, htagged⟩ := tags_insertTag hhas
    rw [importTag_of_missing hhas hneg]
    refine ⟨of_attach (mem_insertTag hhas) mem_concat_self ?_ ?_ fun r hr hne => ?_,
      Int.natCast_pos.mpr (Nat.succ_pos _)⟩
    · rw [htags]
      exact forall_mem_cons.mpr ⟨Nat.succ_pos _, h.positive⟩
    · intro t
      rw [mem_append, ← or_assoc, ← h.names, mem_singleton, Has, htags, exists_mem_cons_iff,
        or_comm, eq_comm]
    · rw [htags] at hr
      rw [htagged]
      have hr : r ∈ s.lib.tags := (mem_cons.mp hr).resolve_left hne
      exact h.tagged_append hr fun hname => hhas ⟨r, hr, hname⟩

theorem foldl_later (hpos : 0 < s.tagid) (tags : List TagText) :
    Importing imgid lib firsts (parts ++ tags) (tags.foldl (importTag imgid) s) := by
  induction tags generalizing parts s with
  | nil => rwa [append_nil]
  | cons tag tags ih =>
    obtain ⟨htag, hpos⟩ := h.later hpos tag
    rw [← singleton_append, ← append_assoc]
    exact ih htag hpos

-- `tagid` is -1 again for the next string.
theorem restart : Importing imgid lib firsts parts ⟨s.lib, -1⟩ :=
  { h with current := fun hpos => absurd hpos (by simp) }

end Importing

def subjectParts (subjects : List TagText) : List TagText := subjects.flatMap (·.splitOn ',')

def subjectFirsts (subjects : List TagText) : List TagText :=
  subjects.filterMap fun subject => (subject.splitOn ',').head?

theorem Importing.exifImportTags (subjects : List TagText) {done : List TagText} {lib' : TagLibrary}
    (h : Importing imgid lib (subjectFirsts done) (subjectParts done) ⟨lib', -1⟩) :
    Importing imgid lib (subjectFirsts (done ++ subjects)) (subjectParts (done ++ subjects))
      ⟨exifImportTags imgid lib' subjects, -1⟩ := by
  induction subjects generalizing done lib' with
  | nil => rwa [append_nil]
  | cons subject subjects ih =>
    rw [← singleton_append, ← append_assoc]
    refine ih ?_
    obtain ⟨tag, tags, hsplit⟩ := exists_cons_of_ne_nil (splitOn_ne_nil ',' subject)
    obtain ⟨hfirst, hpos⟩ := h.first (by simp) tag
    have hall := (hfirst.foldl_later hpos tags).restart
    simpa [subjectFirsts, subjectParts, importSubject, hsplit] using hall

/-- Every tag that the strings name is attached, and no other one, exactly if each of them is there
at the start or comes first in one of the strings. -/
theorem exifImportTags_attaches_iff (lib : TagLibrary) (hpos : ∀ row ∈ lib.tags, 0 < row.id)
    (imgid : Int) (subjects : List TagText) :
    let lib' := exifImportTags imgid lib subjects
    ((∀ tag ∈ subjectParts subjects, lib'.Attached tag imgid) ∧
      ∀ row ∈ lib'.tags, (imgid, row.id) ∈ lib'.taggedImages →
        (imgid, row.id) ∈ lib.taggedImages ∨ row.name ∈ subjectParts subjects) ↔
    ∀ tag ∈ subjectParts subjects, lib.Has tag ∨ tag ∈ subjectFirsts subjects := by
  have hstart : Importing imgid lib (subjectFirsts []) (subjectParts []) ⟨lib, -1⟩ :=
    { positive := hpos
      names := fun tag => by simp [subjectFirsts]
      tagged := fun row _ => by simp [subjectParts]
      current := fun h => absurd h (by simp) }
  have h := hstart.exifImportTags subjects
  rw [nil_append] at h
  constructor
  · rintro ⟨hattached, -⟩ tag htag
    obtain ⟨row, hrow, hname, -⟩ := hattached tag htag
    exact (h.names tag).mp ⟨row, hrow, hname⟩
  · intro hthere
    refine ⟨fun tag htag => ?_, fun row hrow => (h.tagged row hrow).mp⟩
    obtain ⟨row, hrow, rfl⟩ := (h.names tag).mpr (hthere tag htag)
    exact ⟨row, hrow, rfl, (h.tagged row hrow).mpr (.inr htag)⟩

def catPlaces : List TagText := ["cat".toList, "places,cat".toList, "places".toList]

theorem exifImportTags_attaches_catPlaces :
    (exifImportTags 1 noTags catPlaces).Attached "cat".toList 1 ∧
      (exifImportTags 1 noTags catPlaces).Attached "places".toList 1 := by
  have h := ((exifImportTags_attaches_iff noTags (by decide) 1 catPlaces).mpr (by decide)).1
  exact ⟨h _ (by decide), h _ (by decide)⟩

/-- The second tag is not created, and the first one is attached for it. -/
theorem exifImportTags_loses_tag :
    ¬ (exifImportTags 1 noTags ["cat,dog".toList]).Attached "dog".toList 1 := by
  decide

end DTLite
