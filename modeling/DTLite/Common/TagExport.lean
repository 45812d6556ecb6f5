import DTLite.Reasoning.SortedSet
import DTLite.Reasoning.Text
import Mathlib.Data.Char
import Mathlib.Data.List.Lex

/-!
# Tags in exported files

`dt_tag_get_list_export` gives the keywords of an image: the tags attached to it and, from the
paths of these, the tags above them.  A tag is above another one if its name and a bar start the
name of the other one; the query asks only whether its name starts it.
-/

namespace DTLite

open Reasoning List

-- A name, a word or a list of synonyms.
abbrev TagText := List Char

/-- A row of `data.tags`. -/
structure TagRow where
  id : Nat
  name : TagText
  flags : UInt32
  synonyms : TagText
deriving DecidableEq, Repr

-- `name LIKE 'darktable|%'`, which does not look at the case
def isDarktableTag (name : TagText) : Bool :=
  (name.take 10).map Char.toLower = "darktable|".toList

structure TagLibrary where
  tags : List TagRow
  -- `main.tagged_images`: image and tag
  taggedImages : List (Int × Nat)
  -- `memory.darktable_tags`, which renaming a tag does not update
  darktableTags : List Nat
  ids : (tags.map TagRow.id).Nodup
  names : (tags.map TagRow.name).Nodup

variable (lib : TagLibrary)

-- What `memory.darktable_tags` holds afterwards
def dtSetDarktableTags : List Nat :=
  if lib.darktableTags = [] then
    (lib.tags.filter fun row => isDarktableTag row.name).map TagRow.id
  else lib.darktableTags

variable (imgid : Int)

-- "tags attached to image(s), not dt tag"
def attachedTags : List TagRow :=
  lib.tags.filter fun row =>
    (imgid, row.id) ∈ lib.taggedImages ∧ row.id ∉ dtSetDarktableTags lib

-- "keep all tags in the path": `T.name = SUBSTR(T1.name, 1, LENGTH(T.name))`
def tagsInPath : List TagRow :=
  lib.tags.filter fun row =>
    (attachedTags lib imgid).any fun attached => row.name = attached.name.take row.name.length

/-- `dt_tag_t`. -/
structure DtTag where
  id : Nat
  tag : TagText
  leave : TagText
  flags : UInt32
  synonym : TagText
deriving DecidableEq, Repr

-- what stands behind the last bar, `g_strrstr(tag, "|")`
def leaveOf (tag : TagText) : TagText :=
  if '|' ∈ tag then (lastSplit '|' tag).2.tail else tag

def dtTagOfRow (row : TagRow) : DtTag where
  id := row.id
  tag := row.name
  leave := leaveOf row.name
  flags := row.flags
  synonym := row.synonyms

def tagGetAttachedExport : List DtTag :=
  if 0 < imgid then (tagsInPath lib imgid).map dtTagOfRow else []

-- `leave` points into `tag`
def DtTag.mapText (f : Char → Char) (t : DtTag) : DtTag :=
  { t with tag := t.tag.map f, leave := t.leave.map f }

def hideBar (c : Char) : Char := if c = '|' then Char.ofNat 1 else c

def showBar (c : Char) : Char := if c = Char.ofNat 1 then '|' else c

-- `sort_tag_by_path`, as a key
def pathKey (t : DtTag) : TagText := t.tag.map Char.toLower

/-- `dt_sort_tag` by path: sub tags come directly behind their parent. -/
def dtSortTag (tags : List DtTag) : List DtTag :=
  ((tags.map (DtTag.mapText hideBar)).insertionSort fun a b => pathKey a ≤ pathKey b).map
    (DtTag.mapText showBar)

def categoryFlag : UInt32 := 1
def privateFlag : UInt32 := 2

def metaPrivateTag : UInt32 := 65536
def metaSynonymsTag : UInt32 := 131072
def metaOmitHierarchy : UInt32 := 262144

-- "reset private if export private": the loop writes to the first tag in every turn
def resetPrivate : List DtTag → List DtTag
  | [] => []
  | t :: tags => { t with flags := t.flags &&& ~~~privateFlag } :: tags

def isNotExportableTag (path : TagText) (t : DtTag) : Bool :=
  t.tag = path && t.flags &&& (categoryFlag ||| privateFlag) != 0

-- the paths that cutting the tag at its last bar, again and again, gives; `n` bounds their number
def parentPaths : Nat → TagText → List TagText
  | 0, _ => []
  | n + 1, tag =>
      if '|' ∈ tag then (lastSplit '|' tag).1 :: parentPaths n (lastSplit '|' tag).1 else []

def isExported (flags : UInt32) (t : DtTag) : Bool :=
  (flags &&& metaPrivateTag != 0 || t.flags &&& privateFlag == 0) && t.flags &&& categoryFlag == 0

-- `if (*e == ' ') e++`
def skipBlank : TagText → TagText
  | ' ' :: e => e
  | e => e

-- the words of the synonyms, `g_strsplit(synonyms, ",", 0)`
def synonymWords (synonym : TagText) : List TagText :=
  if synonym = [] then [] else (synonym.splitOn ',').map skipBlank

-- one turn of the loop over the sorted tags, `next` being the tags behind `t`
def exportTag (flags : UInt32) (next : List DtTag) (t : DtTag) (tags : List TagText) :
    List TagText :=
  if isExported flags t then
    let tags := t.leave :: tags
    let tags :=
      if flags &&& metaOmitHierarchy != 0 then tags
      else (parentPaths t.tag.length t.tag).foldl (fun tags path =>
        if next.any (isNotExportableTag path) then tags else leaveOf path :: tags) tags
    if flags &&& metaSynonymsTag != 0 then tags ++ synonymWords t.synonym else tags
  else tags

def exportLoop (flags : UInt32) : List DtTag → List TagText → List TagText
  | [], tags => tags
  | t :: next, tags => exportLoop flags next (exportTag flags next t tags)

/-- `dt_util_glist_uniq` sorts and drops repetitions. -/
def dtTagGetListExport (flags : UInt32) : List TagText :=
  let taglist := tagGetAttachedExport lib imgid
  let sorted := (dtSortTag taglist).reverse
  let sorted := if flags &&& metaPrivateTag != 0 then resetPrivate sorted else sorted
  sortUniq (exportLoop flags sorted [])

def IsAbove (p name : TagText) : Prop := ∃ rest, name = p ++ '|' :: rest

instance (p name : TagText) : Decidable (IsAbove p name) :=
  decidable_of_iff (p ++ ['|'] <+: name) (by simp [IsAbove, List.IsPrefix, eq_comm])

variable {p : TagText} {lib lib' : TagLibrary} {imgid : Int} {flags : UInt32} {row : TagRow}
  {t : DtTag} {w : TagText}

theorem IsAbove.length_lt {name : TagText} (h : IsAbove p name) : p.length < name.length := by
  obtain ⟨rest, rfl⟩ := h
  rw [length_append, length_cons]
  omega

theorem IsAbove.trans_prefix {q name : TagText} (h : IsAbove p q) (h' : q <+: name) :
    IsAbove p name := by
  obtain ⟨rest, rfl⟩ := h
  obtain ⟨rest', rfl⟩ := h'
  exact ⟨rest ++ rest', by simp⟩

theorem isAbove_append_bar {x u : TagText} (hu : '|' ∉ u) :
    IsAbove p (x ++ '|' :: u) ↔ p = x ∨ IsAbove p x := by
  constructor
  · rintro ⟨rest, hrest⟩
    rcases append_eq_append_iff.mp hrest with ⟨as, hp, htail⟩ | ⟨bs, hx, htail⟩
    · -- the bar behind `p` stands in `|u`
      cases as with
      | nil => exact .inl (by simpa using hp)
      | cons a as =>
        have hmem : '|' ∈ u := by
          rw [(cons.inj htail).2]
          simp
        exact absurd hmem hu
    · cases bs with
      | nil => exact .inl (by simpa using hx.symm)
      | cons b bs =>
        rw [cons_append, cons.injEq] at htail
        exact .inr ⟨bs, by rw [hx, ← htail.1]⟩
  · rintro (rfl | habove)
    · exact ⟨u, rfl⟩
    · exact habove.trans_prefix (prefix_append _ _)

theorem mem_parentPaths {n : Nat} {tag : TagText} (hn : tag.length ≤ n) :
    p ∈ parentPaths n tag ↔ IsAbove p tag := by
  induction n generalizing tag with
  | zero =>
    have hshort : ¬ IsAbove p tag := fun habove => by
      have := habove.length_lt
      omega
    exact iff_of_false not_mem_nil hshort
  | succ n ih =>
    rw [parentPaths]
    by_cases hbar : '|' ∈ tag
    · obtain ⟨x, u, htag, hu, hsplit⟩ := exists_lastSplit hbar
      have hlen : x.length ≤ n := by
        rw [htag, length_append, length_cons] at hn
        omega
      rw [if_pos hbar, hsplit, mem_cons, ih hlen, htag, isAbove_append_bar hu]
    · have hnot : ¬ IsAbove p tag := fun ⟨rest, hrest⟩ => hbar (by rw [hrest]; simp)
      rw [if_neg hbar]
      exact iff_of_false not_mem_nil hnot

theorem mapText_mapText (f g : Char → Char) (t : DtTag) :
    (t.mapText f).mapText g = t.mapText (g ∘ f) := by
  simp [DtTag.mapText]

theorem hideBar_comp_showBar_comp_hideBar : hideBar ∘ showBar ∘ hideBar = hideBar := by
  funext c
  by_cases hc : c = '|'
  · rw [hc]
    rfl
  · by_cases hone : c = Char.ofNat 1
    · rw [hone]
      rfl
    · simp [hideBar, showBar, hc, hone]

theorem showBar_comp_hideBar : showBar ∘ hideBar = showBar := by
  funext c
  by_cases hc : c = '|'
  · rw [hc]
    rfl
  · simp [hideBar, hc]

theorem mem_dtSortTag {tags : List DtTag} :
    t ∈ dtSortTag tags ↔ ∃ s ∈ tags, s.mapText showBar = t := by
  rw [dtSortTag]
  simp only [mem_insertionSort, mem_map]
  constructor
  · rintro ⟨-, ⟨s, hs, rfl⟩, rfl⟩
    exact ⟨s, hs, by rw [mapText_mapText, showBar_comp_hideBar]⟩
  · rintro ⟨s, hs, rfl⟩
    exact ⟨_, ⟨s, hs, rfl⟩, by rw [mapText_mapText, showBar_comp_hideBar]⟩

theorem pathKey_lt_of_isAbove {s : DtTag} (h : IsAbove s.tag t.tag) :
    pathKey (s.mapText hideBar) < pathKey (t.mapText hideBar) := by
  obtain ⟨rest, hrest⟩ := h
  simp only [pathKey, DtTag.mapText, hrest, map_append]
  have hlex := Lex.append_left (· < ·) (Lex.nil (r := (· < ·))
    (a := (hideBar '|').toLower) (l := (rest.map hideBar).map Char.toLower))
    ((s.tag.map hideBar).map Char.toLower)
  rw [append_nil] at hlex
  exact hlex

theorem dtSortTag_reverse_pairwise (tags : List DtTag) :
    (dtSortTag tags).reverse.Pairwise fun s t => ¬ IsAbove s.tag t.tag := by
  rw [pairwise_reverse, dtSortTag, pairwise_map]
  have hsorted := pairwise_insertionSort (fun a b : DtTag => pathKey a ≤ pathKey b)
    (tags.map (DtTag.mapText hideBar))
  refine hsorted.imp_of_mem ?_
  intro a b ha hb hle habove
  have hhidden : ∀ c ∈ (tags.map (DtTag.mapText hideBar)).insertionSort
      (fun a b => pathKey a ≤ pathKey b), (c.mapText showBar).mapText hideBar = c := by
    intro c hc
    obtain ⟨s, -, rfl⟩ := mem_map.mp ((mem_insertionSort _).mp hc)
    rw [mapText_mapText, mapText_mapText, Function.comp_assoc, hideBar_comp_showBar_comp_hideBar]
  have hlt := pathKey_lt_of_isAbove habove
  rw [hhidden a ha, hhidden b hb] at hlt
  exact (not_lt.mpr hle) hlt

-- the words that a tag gives, `blocked` being the paths that are not exported
def tagWords (flags : UInt32) (blocked : TagText → Bool) (t : DtTag) : List TagText :=
  if isExported flags t then
    t.leave ::
      ((if flags &&& metaOmitHierarchy != 0 then []
        else ((parentPaths t.tag.length t.tag).filter fun path => !blocked path).map leaveOf) ++
      if flags &&& metaSynonymsTag != 0 then synonymWords t.synonym else [])
  else []

theorem mem_foldl_path {blocked : TagText → Bool} (paths tags : List TagText) :
    w ∈ paths.foldl (fun tags path => if blocked path then tags else leaveOf path :: tags) tags ↔
      w ∈ tags ∨ w ∈ (paths.filter fun path => !blocked path).map leaveOf := by
  induction paths generalizing tags with
  | nil => simp
  | cons path paths ih =>
    rw [foldl_cons, ih]
    cases hblocked : blocked path <;> simp [hblocked, or_assoc, or_left_comm]

theorem mem_exportTag {next : List DtTag} {tags : List TagText} :
    w ∈ exportTag flags next t tags ↔
      w ∈ tags ∨ w ∈ tagWords flags (fun path => next.any (isNotExportableTag path)) t := by
  rw [exportTag, tagWords]
  by_cases hexported : isExported flags t = true
  · rw [if_pos hexported, if_pos hexported, mem_cons, mem_append]
    dsimp only
    -- the leaf, the path elements and the synonyms are added in turn
    have hleave : w ∈ t.leave :: tags ↔ w ∈ tags ∨ w = t.leave := by
      rw [mem_cons, or_comm]
    rw [← or_assoc, ← hleave, ← or_assoc]
    have hpaths : ∀ omitted : Bool,
        w ∈ (if omitted then t.leave :: tags
          else (parentPaths t.tag.length t.tag).foldl (fun tags path =>
            if next.any (isNotExportableTag path) then tags else leaveOf path :: tags)
            (t.leave :: tags)) ↔
        w ∈ t.leave :: tags ∨ w ∈ (if omitted then [] else ((parentPaths t.tag.length t.tag).filter
          fun path => !next.any (isNotExportableTag path)).map leaveOf) := by
      intro omitted
      cases omitted with
      | true => simp
      | false => exact mem_foldl_path _ _
    rw [← hpaths]
    split
    · exact mem_append
    · simp
  · rw [if_neg hexported, if_neg hexported]
    simp

theorem isExported_resetPrivate (h : (flags &&& metaPrivateTag != 0) = true) (t : DtTag) :
    isExported flags { t with flags := t.flags &&& ~~~privateFlag } = isExported flags t := by
  have hcategory : t.flags &&& ~~~privateFlag &&& categoryFlag = t.flags &&& categoryFlag := by
    rw [UInt32.and_assoc]
    rfl
  simp [isExported, h, hcategory]

theorem exportLoop_resetPrivate (h : (flags &&& metaPrivateTag != 0) = true) (l : List DtTag)
    (tags : List TagText) : exportLoop flags (resetPrivate l) tags = exportLoop flags l tags := by
  cases l with
  | nil => rfl
  | cons t next =>
    rw [resetPrivate, exportLoop, exportLoop, exportTag, exportTag, isExported_resetPrivate h]

theorem tagWords_congr {blocked blocked' : TagText → Bool}
    (h : ∀ path, IsAbove path t.tag → blocked path = blocked' path) :
    tagWords flags blocked t = tagWords flags blocked' t := by
  have hfilter : ((parentPaths t.tag.length t.tag).filter fun path => !blocked path) =
      (parentPaths t.tag.length t.tag).filter fun path => !blocked' path :=
    filter_congr fun path hpath => by rw [h path ((mem_parentPaths le_rfl).mp hpath)]
  rw [tagWords, tagWords, hfilter]

-- In this order the tags behind a tag are as good as all: what blocks a path of it comes later.
theorem mem_exportLoop (l : List DtTag) {tags : List TagText}
    (hl : l.Pairwise fun s t => ¬ IsAbove s.tag t.tag) :
    w ∈ exportLoop flags l tags ↔
      w ∈ tags ∨ ∃ t ∈ l, w ∈ tagWords flags (fun path => l.any (isNotExportableTag path)) t := by
  suffices H : ∀ l' : List DtTag, ∀ pre, l = pre ++ l' → ∀ tags,
      (w ∈ exportLoop flags l' tags ↔ w ∈ tags ∨
        ∃ t ∈ l', w ∈ tagWords flags (fun path => l.any (isNotExportableTag path)) t) from
    H l [] rfl tags
  intro l'
  induction l' with
  | nil => simp [exportLoop]
  | cons t next ih =>
    intro pre hpre tags
    have hsplit : l = (pre ++ [t]) ++ next := by simp [hpre]
    have hwords : tagWords flags (fun path => next.any (isNotExportableTag path)) t =
        tagWords flags (fun path => l.any (isNotExportableTag path)) t := by
      refine tagWords_congr fun path hpath => ?_
      have hnot : ∀ s ∈ pre ++ [t], isNotExportableTag path s = false := by
        intro s hs
        have hne : s.tag ≠ path := by
          rintro rfl
          rcases mem_append.mp hs with hs | hs
          · rw [hpre, pairwise_append] at hl
            exact hl.2.2 s hs t mem_cons_self hpath
          · rw [mem_singleton.mp hs] at hpath
            exact (lt_irrefl _) hpath.length_lt
        simp [isNotExportableTag, hne]
      have hany : (pre ++ [t]).any (isNotExportableTag path) = false := by
        rw [any_eq_false]
        intro s hs
        rw [hnot s hs]
        exact Bool.false_ne_true
      rw [hsplit, any_append, hany, Bool.false_or]
    rw [exportLoop, ih (pre ++ [t]) hsplit, mem_exportTag, hwords]
    simp [or_assoc]

/-! ## Two libraries -/

def shownTag (row : TagRow) : DtTag := (dtTagOfRow row).mapText showBar

def rowWords (flags : UInt32) (rows : List TagRow) (row : TagRow) : List TagText :=
  tagWords flags (fun path => rows.any fun s => isNotExportableTag path (shownTag s)) (shownTag row)

theorem mem_tagGetAttachedExport_sorted (h : 0 < imgid) :
    t ∈ (dtSortTag (tagGetAttachedExport lib imgid)).reverse ↔
      ∃ row ∈ tagsInPath lib imgid, shownTag row = t := by
  rw [mem_reverse, mem_dtSortTag, tagGetAttachedExport, if_pos h]
  simp [shownTag]

theorem mem_dtTagGetListExport :
    w ∈ dtTagGetListExport lib imgid flags ↔
      0 < imgid ∧ ∃ row ∈ tagsInPath lib imgid, w ∈ rowWords flags (tagsInPath lib imgid) row := by
  by_cases himg : 0 < imgid
  · have hreset : ∀ l : List DtTag,
        exportLoop flags (if flags &&& metaPrivateTag != 0 then resetPrivate l else l) [] =
          exportLoop flags l [] := by
      intro l
      split
      case isTrue hprivate => exact exportLoop_resetPrivate hprivate l []
      case isFalse => rfl
    have hblocked : ∀ path, ((dtSortTag (tagGetAttachedExport lib imgid)).reverse.any
        (isNotExportableTag path)) =
        (tagsInPath lib imgid).any fun s => isNotExportableTag path (shownTag s) := by
      intro path
      rw [Bool.eq_iff_iff, any_eq_true]
      simp only [mem_tagGetAttachedExport_sorted himg]
      simp
    rw [dtTagGetListExport, mem_sortUniq, hreset, mem_exportLoop _ (dtSortTag_reverse_pairwise _)]
    simp only [hblocked, mem_tagGetAttachedExport_sorted himg]
    simp [himg, rowWords]
  · have hnil : dtTagGetListExport lib imgid flags = [] := by
      simp [dtTagGetListExport, tagGetAttachedExport, himg, dtSortTag, resetPrivate, exportLoop,
        sortUniq]
    rw [hnil]
    simp [himg]

theorem dtTagGetListExport_ext :
    dtTagGetListExport lib imgid flags = dtTagGetListExport lib' imgid flags ↔
      ∀ w, w ∈ dtTagGetListExport lib imgid flags ↔ w ∈ dtTagGetListExport lib' imgid flags := by
  rw [dtTagGetListExport, dtTagGetListExport, sortUniq_eq_iff]
  simp [mem_sortUniq]

theorem mem_attachedTags :
    row ∈ attachedTags lib imgid ↔
      row ∈ lib.tags ∧ (imgid, row.id) ∈ lib.taggedImages ∧ row.id ∉ dtSetDarktableTags lib := by
  simp [attachedTags]

theorem mem_tagsInPath :
    row ∈ tagsInPath lib imgid ↔
      row ∈ lib.tags ∧ ∃ t ∈ attachedTags lib imgid, row.name <+: t.name := by
  simp [tagsInPath, prefix_iff_eq_take]

/-- The tag is attached to the image, or above one that is. -/
def OnPath (lib : TagLibrary) (imgid : Int) (row : TagRow) : Prop :=
  row ∈ attachedTags lib imgid ∨ ∃ t ∈ attachedTags lib imgid, IsAbove row.name t.name

instance (lib : TagLibrary) (imgid : Int) (row : TagRow) : Decidable (OnPath lib imgid row) :=
  inferInstanceAs (Decidable (_ ∨ _))

/-- The libraries agree on the tags attached to the image and on those above them. -/
structure AgreeOnPaths (lib lib' : TagLibrary) (imgid : Int) : Prop where
  attached : ∀ id, (imgid, id) ∈ lib.taggedImages ↔ (imgid, id) ∈ lib'.taggedImages
  rows : ∀ row, (imgid, row.id) ∈ lib.taggedImages → (row ∈ lib.tags ↔ row ∈ lib'.tags)
  -- which of them darktable takes for its own
  darktable : ∀ row ∈ lib.tags, (imgid, row.id) ∈ lib.taggedImages →
    (row.id ∈ dtSetDarktableTags lib ↔ row.id ∈ dtSetDarktableTags lib')
  above : ∀ t ∈ lib.tags, (imgid, t.id) ∈ lib.taggedImages →
    ∀ row, IsAbove row.name t.name → (row ∈ lib.tags ↔ row ∈ lib'.tags)

section

variable {lib lib' : TagLibrary} {imgid : Int} (h : AgreeOnPaths lib lib' imgid)
include h

theorem AgreeOnPaths.symm :
    AgreeOnPaths lib' lib imgid where
  attached id := (h.attached id).symm
  rows row hrow := (h.rows row ((h.attached row.id).mpr hrow)).symm
  darktable row hmem hrow := by
    have hrow := (h.attached row.id).mpr hrow
    exact (h.darktable row ((h.rows row hrow).mpr hmem) hrow).symm
  above t ht htag row hrow := by
    have htag := (h.attached t.id).mpr htag
    exact (h.above t ((h.rows t htag).mpr ht) htag row hrow).symm

theorem AgreeOnPaths.mem_attachedTags (hrow : row ∈ attachedTags lib imgid) :
    row ∈ attachedTags lib' imgid := by
  rw [DTLite.mem_attachedTags] at hrow ⊢
  obtain ⟨hmem, htag, hnot⟩ := hrow
  exact ⟨(h.rows row htag).mp hmem, (h.attached row.id).mp htag,
    fun hdt => hnot ((h.darktable row hmem htag).mpr hdt)⟩

theorem AgreeOnPaths.mem_tagsInPath (hmem : row ∈ lib.tags)
    (hpath : OnPath lib imgid row) : row ∈ tagsInPath lib' imgid := by
  rw [DTLite.mem_tagsInPath]
  rcases hpath with hrow | ⟨t, ht, habove⟩
  · have hrow' := h.mem_attachedTags hrow
    exact ⟨(DTLite.mem_attachedTags.mp hrow').1, row, hrow', prefix_rfl⟩
  · obtain ⟨htag, himg, -⟩ := DTLite.mem_attachedTags.mp ht
    obtain ⟨rest, hrest⟩ := habove
    refine ⟨(h.above t htag himg row ⟨rest, hrest⟩).mp hmem, t, h.mem_attachedTags ht, ?_⟩
    exact hrest ▸ prefix_append _ _

end

-- the character that sorting takes for a bar
def HasMark (lib : TagLibrary) (imgid : Int) : Prop :=
  ∃ t ∈ attachedTags lib imgid, Char.ofNat 1 ∈ t.name

instance (lib : TagLibrary) (imgid : Int) : Decidable (HasMark lib imgid) :=
  inferInstanceAs (Decidable (∃ t ∈ attachedTags lib imgid, Char.ofNat 1 ∈ t.name))

theorem hasMark_of_mem (hrow : row ∈ tagsInPath lib imgid) (hone : Char.ofNat 1 ∈ row.name) :
    HasMark lib imgid := by
  obtain ⟨-, t, ht, hprefix⟩ := mem_tagsInPath.mp hrow
  exact ⟨t, ht, hprefix.subset hone⟩

theorem shownTag_tag (hone : Char.ofNat 1 ∉ row.name) : (shownTag row).tag = row.name := by
  have hshow : ∀ c ∈ row.name, showBar c = c := by
    intro c hc
    rw [showBar, if_neg (ne_of_mem_of_not_mem hc hone)]
  calc (shownTag row).tag = row.name.map showBar := rfl
    _ = row.name.map id := map_congr_left hshow
    _ = row.name := map_id _

/-- The mark is in the name of the tag, or in that of one that is shown above it. -/
def Marked (lib : TagLibrary) (imgid : Int) (row : TagRow) : Prop :=
  Char.ofNat 1 ∈ row.name ∨ ∃ s ∈ tagsInPath lib imgid,
    Char.ofNat 1 ∈ s.name ∧ IsAbove (shownTag s).tag row.name

theorem AgreeOnPaths.mem_of_isAbove (h : AgreeOnPaths lib lib' imgid)
    (hrow : row ∈ tagsInPath lib imgid) (hmark : ¬ Marked lib imgid row) {path : TagText}
    (habove : IsAbove path row.name) {s : TagRow} (hs : s ∈ tagsInPath lib imgid)
    (htag : (shownTag s).tag = path) : s ∈ tagsInPath lib' imgid := by
  have hone : Char.ofNat 1 ∉ s.name := fun hone => hmark (.inr ⟨s, hs, hone, htag ▸ habove⟩)
  rw [shownTag_tag hone] at htag
  obtain ⟨-, t, ht, hprefix⟩ := DTLite.mem_tagsInPath.mp hrow
  exact h.mem_tagsInPath (DTLite.mem_tagsInPath.mp hs).1
    (.inr ⟨t, ht, htag ▸ habove.trans_prefix hprefix⟩)

theorem AgreeOnPaths.rowWords_eq (h : AgreeOnPaths lib lib' imgid)
    (hrow : row ∈ tagsInPath lib imgid) (hrow' : row ∈ tagsInPath lib' imgid)
    (hmark : ¬ Marked lib imgid row) (hmark' : ¬ Marked lib' imgid row) :
    rowWords flags (tagsInPath lib imgid) row = rowWords flags (tagsInPath lib' imgid) row := by
  refine tagWords_congr fun path hpath => ?_
  rw [shownTag_tag fun hone => hmark (.inl hone)] at hpath
  rw [Bool.eq_iff_iff, any_eq_true, any_eq_true]
  have hname : ∀ s, isNotExportableTag path (shownTag s) = true → (shownTag s).tag = path := by
    intro s hblocks
    rw [isNotExportableTag, Bool.and_eq_true, decide_eq_true_eq] at hblocks
    exact hblocks.1
  constructor
  · rintro ⟨s, hs, hblocks⟩
    exact ⟨s, h.mem_of_isAbove hrow hmark hpath hs (hname s hblocks), hblocks⟩
  · rintro ⟨s, hs, hblocks⟩
    exact ⟨s, h.symm.mem_of_isAbove hrow' hmark' hpath hs (hname s hblocks), hblocks⟩

/-- What the tags off the paths of `lib` give, some tag gives in `lib'`. Sorting makes new paths of
names with the mark, so this goes for the tags on such paths too. -/
def StraysCovered (lib lib' : TagLibrary) (imgid : Int) (flags : UInt32) : Prop :=
  ∀ row ∈ tagsInPath lib imgid,
    ¬ OnPath lib imgid row ∨ Marked lib imgid row ∨ Marked lib' imgid row →
    ∀ w ∈ rowWords flags (tagsInPath lib imgid) row,
      ∃ row' ∈ tagsInPath lib' imgid, w ∈ rowWords flags (tagsInPath lib' imgid) row'

theorem straysCovered_of_onPath (hpath : ∀ row ∈ tagsInPath lib imgid, OnPath lib imgid row)
    (hmark : ¬ HasMark lib imgid) (hmark' : ¬ HasMark lib' imgid) :
    StraysCovered lib lib' imgid flags := by
  rintro row hrow (hstray | (hone | ⟨s, hs, hone, -⟩) | hone | ⟨s, hs, hone, -⟩)
  · exact absurd (hpath row hrow) hstray
  · exact absurd (hasMark_of_mem hrow hone) hmark
  · exact absurd (hasMark_of_mem hs hone) hmark
  · exact absurd (hasMark_of_mem hrow hone) hmark
  · exact absurd (hasMark_of_mem hs hone) hmark'

theorem StraysCovered.mem_export (h : AgreeOnPaths lib lib' imgid)
    (hcovered : StraysCovered lib lib' imgid flags) (hw : w ∈ dtTagGetListExport lib imgid flags) :
    w ∈ dtTagGetListExport lib' imgid flags := by
  rw [mem_dtTagGetListExport] at hw ⊢
  obtain ⟨himg, row, hrow, hw⟩ := hw
  refine ⟨himg, ?_⟩
  by_cases hstray : ¬ OnPath lib imgid row ∨ Marked lib imgid row ∨ Marked lib' imgid row
  · exact hcovered row hrow hstray w hw
  · rw [not_or, not_or, not_not] at hstray
    obtain ⟨hpath, hmark, hmark'⟩ := hstray
    have hrow' := h.mem_tagsInPath (mem_tagsInPath.mp hrow).1 hpath
    exact ⟨row, hrow', h.rowWords_eq hrow hrow' hmark hmark' ▸ hw⟩

/-- Two libraries that agree on the paths of an image give one list of words for it exactly when
what the other tags that the query finds add in one is also given in the other. -/
theorem dtTagGetListExport_eq_iff {lib lib' : TagLibrary} {imgid : Int}
    (h : AgreeOnPaths lib lib' imgid) (flags : UInt32) :
    dtTagGetListExport lib imgid flags = dtTagGetListExport lib' imgid flags ↔
      (0 < imgid → StraysCovered lib lib' imgid flags ∧ StraysCovered lib' lib imgid flags) := by
  have hcovered : ∀ lib lib' : TagLibrary,
      (∀ w, w ∈ dtTagGetListExport lib imgid flags → w ∈ dtTagGetListExport lib' imgid flags) →
      0 < imgid → StraysCovered lib lib' imgid flags := by
    intro lib lib' hsub himg row hrow _ w hw
    exact (mem_dtTagGetListExport.mp (hsub w (mem_dtTagGetListExport.mpr
      ⟨himg, row, hrow, hw⟩))).2
  rw [dtTagGetListExport_ext]
  constructor
  · intro heq himg
    exact ⟨hcovered lib lib' (fun w => (heq w).mp) himg,
      hcovered lib' lib (fun w => (heq w).mpr) himg⟩
  · intro hboth w
    constructor
    · intro hw
      exact (hboth (mem_dtTagGetListExport.mp hw).1).1.mem_export h hw
    · intro hw
      exact (hboth (mem_dtTagGetListExport.mp hw).1).2.mem_export h.symm hw

theorem mem_dtSetDarktableTags (h : lib.darktableTags = []) (hrow : row ∈ lib.tags) :
    row.id ∈ dtSetDarktableTags lib ↔ isDarktableTag row.name = true := by
  rw [dtSetDarktableTags, if_pos h, mem_map]
  constructor
  · rintro ⟨row', hrow', hid⟩
    obtain ⟨hmem, hname⟩ := mem_filter.mp hrow'
    rw [← inj_on_of_nodup_map lib.ids hmem hrow hid]
    exact hname
  · intro hname
    exact ⟨row, mem_filter.mpr ⟨hrow, hname⟩, rfl⟩

theorem agreeOnPaths_append (new : TagRow) (htags : lib'.tags = lib.tags ++ [new])
    (himages : lib'.taggedImages = lib.taggedImages) (hlib : lib.darktableTags = [])
    (hlib' : lib'.darktableTags = []) (hattached : (imgid, new.id) ∉ lib.taggedImages)
    (habove : ∀ t ∈ lib.tags, ¬ IsAbove new.name t.name) : AgreeOnPaths lib lib' imgid := by
  have hmem : ∀ row, row ≠ new → (row ∈ lib.tags ↔ row ∈ lib'.tags) := by
    intro row hne
    simp [htags, hne]
  have hne : ∀ row, (imgid, row.id) ∈ lib.taggedImages → row ≠ new := by
    rintro row hrow rfl
    exact hattached hrow
  constructor
  case attached => exact fun id => by rw [himages]
  case rows => exact fun row hrow => hmem row (hne row hrow)
  case darktable =>
    intro row hrow htag
    rw [mem_dtSetDarktableTags hlib hrow,
      mem_dtSetDarktableTags hlib' ((hmem row (hne row htag)).mp hrow)]
  case above =>
    intro t ht _ row hrow
    refine hmem row ?_
    rintro rfl
    exact habove t ht hrow

def franceTag : TagRow := ⟨1, "places|france".toList, 0, []⟩

def placesLibrary : TagLibrary where
  tags := [franceTag]
  taggedImages := [(1, 1)]
  darktableTags := []
  ids := by decide
  names := by decide

def placesLibraryWith (name : TagText) (h : name ≠ franceTag.name) : TagLibrary where
  tags := [franceTag, ⟨2, name, 0, []⟩]
  taggedImages := [(1, 1)]
  darktableTags := []
  ids := by simp [franceTag]
  names := by simp [Ne.symm h]

theorem placesLibrary_agree (name : TagText) (h : name ≠ franceTag.name)
    (habove : ¬ IsAbove name franceTag.name) :
    AgreeOnPaths placesLibrary (placesLibraryWith name h) 1 := by
  refine agreeOnPaths_append ⟨2, name, 0, []⟩ rfl rfl rfl rfl (by simp [placesLibrary]) ?_
  intro t ht
  rw [mem_singleton.mp ht]
  exact habove

theorem dtTagGetListExport_eq_animals :
    dtTagGetListExport placesLibrary 1 0 =
      dtTagGetListExport (placesLibraryWith "animals".toList (by decide)) 1 0 := by
  have hagree := placesLibrary_agree "animals".toList (by decide) (by decide)
  refine (dtTagGetListExport_eq_iff hagree 0).mpr fun _ => ⟨?_, ?_⟩
  · exact straysCovered_of_onPath (by decide) (by decide) (by decide)
  · exact straysCovered_of_onPath (by decide) (by decide) (by decide)

/-- `pla` starts the name `places|france`, but it is no place. -/
theorem dtTagGetListExport_stray :
    AgreeOnPaths placesLibrary (placesLibraryWith "pla".toList (by decide)) 1 ∧
      dtTagGetListExport placesLibrary 1 0 = ["france".toList, "places".toList] ∧
      dtTagGetListExport (placesLibraryWith "pla".toList (by decide)) 1 0 =
        ["france".toList, "pla".toList, "places".toList] := by
  refine ⟨placesLibrary_agree _ _ (by decide), ?_, ?_⟩
  · decide +kernel
  · decide +kernel

end DTLite
