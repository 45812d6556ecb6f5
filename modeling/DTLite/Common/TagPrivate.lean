import DTLite.Common.TagExport

/-!
# Exporting private tags

With `DT_META_PRIVATE_TAG` the export is to take private tags for ordinary ones. The flag is reset
in one tag only, so that the other private tags still hide their paths from the tags below.
-/

namespace DTLite

open Reasoning List TagRow

def TagRow.clearPrivate (row : TagRow) : TagRow :=
  { row with flags := row.flags &&& ~~~privateFlag }

def TagLibrary.clearPrivate (lib : TagLibrary) : TagLibrary where
  tags := lib.tags.map TagRow.clearPrivate
  taggedImages := lib.taggedImages
  darktableTags := lib.darktableTags
  ids := by simpa [Function.comp_def, TagRow.clearPrivate] using lib.ids
  names := by simpa [Function.comp_def, TagRow.clearPrivate] using lib.names

/-- Tags that are private hide the path, and none that is a category does. -/
def HidesPrivate (rows : List TagRow) (path : TagText) : Prop :=
  (∃ s ∈ rows, isNotExportableTag path (shownTag s) = true) ∧
    ∀ s ∈ rows, (shownTag s).tag = path → s.flags &&& categoryFlag = 0

/-- The word that a path hidden so would give is also given by one of the tags. -/
def HiddenWordsGiven (lib : TagLibrary) (imgid : Int) (flags : UInt32) : Prop :=
  ∀ row ∈ tagsInPath lib imgid, isExported flags (shownTag row) = true →
    ∀ path, IsAbove path (shownTag row).tag → HidesPrivate (tagsInPath lib imgid) path →
      ∃ s ∈ tagsInPath lib imgid, leaveOf path ∈ rowWords flags (tagsInPath lib imgid) s

variable {lib : TagLibrary} {imgid : Int} {flags : UInt32} {row : TagRow} {path w : TagText}

theorem dtSetDarktableTags_clearPrivate :
    dtSetDarktableTags lib.clearPrivate = dtSetDarktableTags lib := by
  simp [dtSetDarktableTags, TagLibrary.clearPrivate, filter_map, Function.comp_def, clearPrivate]

theorem tagsInPath_clearPrivate :
    tagsInPath lib.clearPrivate imgid = (tagsInPath lib imgid).map clearPrivate := by
  have hattached : attachedTags lib.clearPrivate imgid =
      (attachedTags lib imgid).map clearPrivate := by
    rw [attachedTags, dtSetDarktableTags_clearPrivate]
    exact filter_map
  rw [tagsInPath, hattached]
  refine filter_map.trans (congrArg _ (filter_congr fun row _ => ?_))
  rw [Function.comp_apply, any_map]
  rfl

theorem isNotExportableTag_clearPrivate :
    isNotExportableTag path (shownTag row.clearPrivate) = true ↔
      (shownTag row).tag = path ∧ row.flags &&& categoryFlag ≠ 0 := by
  have hflags : row.flags &&& ~~~privateFlag &&& (categoryFlag ||| privateFlag) =
      row.flags &&& categoryFlag := by
    rw [UInt32.and_assoc]
    rfl
  show (decide ((shownTag row).tag = path) && (row.flags &&& ~~~privateFlag &&&
    (categoryFlag ||| privateFlag)) != 0) = true ↔ _
  rw [hflags]
  simp

-- A path is open in the cleared table if it is open, or hidden by private tags only.
theorem any_clearPrivate_eq_false {rows : List TagRow} :
    (rows.map clearPrivate).any (isNotExportableTag path <| shownTag ·) = false ↔
      rows.any (isNotExportableTag path <| shownTag ·) = false ∨ HidesPrivate rows path := by
  have hcleared : (rows.map clearPrivate).any (isNotExportableTag path <| shownTag ·) =
      false ↔
      ∀ s ∈ rows, (shownTag s).tag = path → s.flags &&& categoryFlag = 0 := by
    rw [any_map, any_eq_false]
    simp [isNotExportableTag_clearPrivate]
  rw [hcleared, HidesPrivate]
  cases hany : rows.any (isNotExportableTag path <| shownTag ·) with
  | true => simp [any_eq_true.mp hany]
  | false =>
    refine iff_of_true (fun s hs htag => ?_) (.inl rfl)
    have hflags : (shownTag s).flags &&& (categoryFlag ||| privateFlag) = 0 := by
      have hnot := any_eq_false.mp hany s hs
      rw [isNotExportableTag, htag] at hnot
      simpa using hnot
    calc s.flags &&& categoryFlag
        = (shownTag s).flags &&& (categoryFlag ||| privateFlag) &&& categoryFlag := by
          rw [UInt32.and_assoc]
          rfl
      _ = 0 := by rw [hflags, UInt32.zero_and]

theorem mem_tagWords {blocked : TagText → Bool} {t : DtTag} :
    w ∈ tagWords flags blocked t ↔ isExported flags t = true ∧ (w = t.leave ∨
      (flags &&& metaOmitHierarchy = 0 ∧
        ∃ path, IsAbove path t.tag ∧ blocked path = false ∧ leaveOf path = w) ∨
      (flags &&& metaSynonymsTag ≠ 0 ∧ w ∈ synonymWords t.synonym)) := by
  rw [tagWords]
  split
  · by_cases homit : flags &&& metaOmitHierarchy = 0 <;>
      by_cases hsynonyms : flags &&& metaSynonymsTag = 0 <;>
      simp [*, mem_parentPaths, and_assoc]
  · simp [*]

-- What a tag gives in the cleared table: its words, and what private tags hide from it.
theorem mem_rowWords_clearPrivate (h : flags &&& metaPrivateTag ≠ 0) {rows : List TagRow} :
    w ∈ rowWords flags (rows.map clearPrivate) row.clearPrivate ↔
      w ∈ rowWords flags rows row ∨ (isExported flags (shownTag row) = true ∧
        flags &&& metaOmitHierarchy = 0 ∧ ∃ path, IsAbove path (shownTag row).tag ∧
          HidesPrivate rows path ∧ leaveOf path = w) := by
  have hexported : isExported flags (shownTag row.clearPrivate) = isExported flags (shownTag row) :=
    isExported_resetPrivate (bne_iff_ne.mpr h) (shownTag row)
  rw [rowWords, mem_tagWords, rowWords, mem_tagWords, hexported]
  simp only [any_clearPrivate_eq_false]
  constructor
  · rintro ⟨hexp, rfl | ⟨homit, path, habove, hopen | hhides, rfl⟩ | hsyn⟩
    · exact .inl ⟨hexp, .inl rfl⟩
    · exact .inl ⟨hexp, .inr (.inl ⟨homit, path, habove, hopen, rfl⟩)⟩
    · exact .inr ⟨hexp, homit, path, habove, hhides, rfl⟩
    · exact .inl ⟨hexp, .inr (.inr hsyn)⟩
  · rintro (⟨hexp, rfl | ⟨homit, path, habove, hopen, rfl⟩ | hsyn⟩ |
      ⟨hexp, homit, path, habove, hhides, rfl⟩)
    · exact ⟨hexp, .inl rfl⟩
    · exact ⟨hexp, .inr (.inl ⟨homit, path, habove, .inl hopen, rfl⟩)⟩
    · exact ⟨hexp, .inr (.inr hsyn)⟩
    · exact ⟨hexp, .inr (.inl ⟨homit, path, habove, .inr hhides, rfl⟩)⟩

/-- With private tags exported the list is the one without private flags exactly if what private
tags hide is given by other ones. -/
theorem dtTagGetListExport_clearPrivate_iff (h : flags &&& metaPrivateTag ≠ 0) :
    dtTagGetListExport lib imgid flags = dtTagGetListExport lib.clearPrivate imgid flags ↔
      (0 < imgid → flags &&& metaOmitHierarchy = 0 → HiddenWordsGiven lib imgid flags) := by
  have hcleared : ∀ w, w ∈ dtTagGetListExport lib.clearPrivate imgid flags ↔
      w ∈ dtTagGetListExport lib imgid flags ∨ (0 < imgid ∧ ∃ row ∈ tagsInPath lib imgid,
        isExported flags (shownTag row) = true ∧ flags &&& metaOmitHierarchy = 0 ∧
          ∃ path, IsAbove path (shownTag row).tag ∧ HidesPrivate (tagsInPath lib imgid) path ∧
            leaveOf path = w) := by
    intro w
    rw [mem_dtTagGetListExport, mem_dtTagGetListExport, tagsInPath_clearPrivate]
    simp only [mem_map, exists_exists_and_eq_and, mem_rowWords_clearPrivate h, and_or_left,
      exists_or]
  rw [dtTagGetListExport_ext]
  constructor
  · intro heq himg homit row hrow hexp path habove hhides
    exact (mem_dtTagGetListExport.mp ((heq _).mpr ((hcleared _).mpr
      (.inr ⟨himg, row, hrow, hexp, homit, path, habove, hhides, rfl⟩)))).2
  · intro hgiven w
    rw [hcleared]
    refine ⟨.inl, ?_⟩
    rintro (hw | ⟨himg, row, hrow, hexp, homit, path, habove, hhides, rfl⟩)
    · exact hw
    · exact mem_dtTagGetListExport.mpr
        ⟨himg, hgiven himg homit row hrow hexp path habove hhides⟩

-- Without the mark a private tag gives the word that it hides.
theorem hiddenWordsGiven_of_not_hasMark (h : flags &&& metaPrivateTag ≠ 0)
    (hmark : ¬ HasMark lib imgid) : HiddenWordsGiven lib imgid flags := by
  rintro row - - path - ⟨⟨s, hs, hblocks⟩, hcategory⟩
  have htag : (shownTag s).tag = path := by
    rw [isNotExportableTag, Bool.and_eq_true, decide_eq_true_eq] at hblocks
    exact hblocks.1
  have hname := shownTag_tag fun hone => hmark (hasMark_of_mem hs hone)
  refine ⟨s, hs, mem_tagWords.mpr ⟨?_, .inl ?_⟩⟩
  · have hflags : (shownTag s).flags &&& categoryFlag = 0 := hcategory s hs htag
    simp [isExported, h, hflags]
  · rw [← htag, hname]
    have hmap : s.name.map showBar = s.name := hname
    show leaveOf s.name = (leaveOf s.name).map showBar
    rw [leaveOf]
    split
    case isTrue hbar =>
      obtain ⟨x, u, hx, -, hsplit⟩ := exists_lastSplit hbar
      rw [hx, map_append] at hmap
      rw [hsplit]
      exact (cons.inj (append_inj hmap (length_map _)).2).2.symm
    case isFalse => exact hmap.symm

-- a private tag, and one below it that is attached
def privateParent (name : TagText) : TagLibrary where
  tags := [⟨1, name ++ ['|', 'c'], 0, []⟩, ⟨2, name, privateFlag, []⟩]
  taggedImages := [(1, 1)]
  darktableTags := []
  ids := by simp
  names := by simp

theorem dtTagGetListExport_clearPrivate_plain :
    dtTagGetListExport (privateParent ['a', 'b']) 1 metaPrivateTag =
      dtTagGetListExport (privateParent ['a', 'b']).clearPrivate 1 metaPrivateTag :=
  (dtTagGetListExport_clearPrivate_iff (by decide)).mpr fun _ _ =>
    hiddenWordsGiven_of_not_hasMark (by decide) (by decide)

/-- The private tag is shown as `a|b`, and gives this as its word; it hides the word `b`. -/
theorem dtTagGetListExport_hidden_word :
    dtTagGetListExport (privateParent ['a', Char.ofNat 1, 'b']) 1 metaPrivateTag =
        [['a'], ['a', '|', 'b'], ['c']] ∧
      dtTagGetListExport (privateParent ['a', Char.ofNat 1, 'b']).clearPrivate 1 metaPrivateTag =
        [['a'], ['a', '|', 'b'], ['b'], ['c']] := by
  refine ⟨?_, ?_⟩
  · decide +kernel
  · decide +kernel

end DTLite
