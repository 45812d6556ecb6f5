import DTLite.Common.VersionGroups
import DTLite.Common.Versions
import DTLite.Reasoning.Runs
import DTLite.Reasoning.Table

/-!
# Versions along a run

Each statement works on the rows of one file as the operation on version groups says. A run keeps
the versions apart, and `max_version` above them, exactly as long as its sidecar files fit and the
numbers do not run out.
-/

namespace DTLite

open Reasoning VersionGroup List VersionTable

def VersionRow.pair (row : VersionRow) : Int × Int := (row.version.toInt, row.maxVersion.toInt)

variable {file : Int × Path}

namespace VersionTable

variable (t : VersionTable)

def group (file : Int × Path) : VersionGroup := (t.versionRows file).map VersionRow.pair

theorem inInt32_toInt (x : Int32) : InInt32 x.toInt := by
  have hlow := x.le_toInt
  have hhigh := x.toInt_lt
  unfold InInt32
  omega

theorem group_inRange (file : Int × Path) : (t.group file).InRange := by
  intro p hp
  obtain ⟨row, -, rfl⟩ := mem_map.mp hp
  exact ⟨inInt32_toInt _, inInt32_toInt _⟩

theorem group_versions (file : Int × Path) :
    (t.group file).versions = ((t.versionRows file).map VersionRow.version).map Int32.toInt := by
  simp [group, versions, VersionRow.pair]

theorem mem_group_versions {v : Int32} :
    v.toInt ∈ (t.group file).versions ↔ ∃ row ∈ t.versionRows file, row.version = v := by
  simp [group_versions, Int32.toInt_inj]

theorem consistent_iff : t.Consistent ↔ ∀ file, (t.group file).Ok := by
  refine forall_congr' fun file => ?_
  have hinj : Function.Injective Int32.toInt := fun _ _ => Int32.toInt_inj.mp
  rw [Ok, group_versions, nodup_map_iff hinj]
  refine and_congr_right fun _ => ?_
  simp [group, VersionRow.pair, Int32.le_iff_toInt_le]

theorem consistent_iff_of_group {t t' : VersionTable} (h : t.Consistent) (file : Int × Path)
    (hother : ∀ file', file' ≠ file → t'.group file' = t.group file') :
    t'.Consistent ↔ (t'.group file).Ok := by
  rw [consistent_iff]
  constructor
  · intro hok
    exact hok file
  · intro hok file'
    by_cases hfile : file' = file
    · rw [hfile]
      exact hok
    · rw [hother file' hfile]
      exact t.consistent_iff.mp h file'

variable (p : VersionRow → Bool) {row : VersionRow} (set : VersionRow → Int32 × Int32)

theorem mem_versionRows : row ∈ t.versionRows file ↔ row ∈ t.rows ∧ row.file = file := by
  simp [versionRows]

theorem row?_eq_some {id : Nat} : t.row? id = some row ↔ row ∈ t.rows ∧ row.id = id := by
  refine find?_key_eq_some_iff ?_
  exact (pairwise_map.mpr t.ids).imp Nat.ne_of_lt

theorem setRow_file (row : VersionRow) : (setRow p set row).file = row.file := by
  unfold setRow
  split <;> rfl

theorem setRow_id (row : VersionRow) : (setRow p set row).id = row.id := by
  unfold setRow
  split <;> rfl

theorem versionRows_update (file : Int × Path) :
    (t.update p set).versionRows file = (t.versionRows file).map (setRow p set) := by
  rw [versionRows, update, filter_map]
  congr 1
  exact filter_congr fun row _ => by simp [setRow_file]

theorem versionRows_update_of_not {p : VersionRow → Bool}
    (h : ∀ row ∈ t.versionRows file, p row = false) :
    (t.update p set).versionRows file = t.versionRows file := by
  have hself : ∀ row ∈ t.versionRows file, setRow p set row = id row := by
    intro row hrow
    rw [setRow, h row hrow]
    rfl
  rw [versionRows_update, map_congr_left hself, map_id]

theorem versionRows_insert (filmId : Int) (filename : Path) (version maxVersion : Int32) :
    (t.insert filmId filename version maxVersion).versionRows (filmId, filename) =
      t.versionRows (filmId, filename) ++
        [⟨t.lastId + 1, filmId, filename, version, maxVersion⟩] := by
  refine rowsOf_insert VersionRow.file t.rows fun row hrow => ?_
  rw [mem_singleton.mp hrow]
  rfl

theorem versionRows_insert_of_ne {filmId : Int} {filename : Path}
    (hfile : file ≠ (filmId, filename)) (version maxVersion : Int32) :
    (t.insert filmId filename version maxVersion).versionRows file = t.versionRows file := by
  refine rowsOf_insert_of_ne VersionRow.file t.rows (fun row hrow => ?_) hfile
  rw [mem_singleton.mp hrow]
  rfl

def addRow (filmId : Int) (filename : Path) (version maxVersion start : Int32) : VersionTable :=
  ((t.insert filmId filename start start).setVersion (t.lastId + 1) version).setMaxVersion
    (filmId, filename) maxVersion

variable {filmId : Int} {filename : Path} {version maxVersion start : Int32}

theorem versionRows_addRow :
    (t.addRow filmId filename version maxVersion start).versionRows (filmId, filename) =
      (t.versionRows (filmId, filename)).map (fun row => { row with maxVersion := maxVersion }) ++
        [⟨t.lastId + 1, filmId, filename, version, maxVersion⟩] := by
  have hold : ∀ row ∈ t.versionRows (filmId, filename),
      setRow (fun row => row.file = (filmId, filename)) (fun row => (row.version, maxVersion))
        (setRow (fun row => row.id = t.lastId + 1) (fun row => (version, row.maxVersion)) row) =
      { row with maxVersion := maxVersion } := by
    intro row hrow
    obtain ⟨hmem, hfile⟩ := t.mem_versionRows.mp hrow
    have hid : row.id ≠ t.lastId + 1 := by
      have := t.lastId_ok row hmem
      omega
    simp [setRow, hid, hfile]
  rw [addRow, setMaxVersion, setVersion, versionRows_update, versionRows_update,
    versionRows_insert, map_append, map_append, map_map]
  congr 1
  · exact map_congr_left hold
  · simp [setRow, VersionRow.file]

theorem versionRows_addRow_of_ne (hfile : file ≠ (filmId, filename)) :
    (t.addRow filmId filename version maxVersion start).versionRows file = t.versionRows file := by
  have hrows := t.versionRows_insert_of_ne hfile start start
  rw [addRow, setMaxVersion, setVersion, versionRows_update_of_not, versionRows_update_of_not,
    hrows]
  · intro row hrow
    rw [hrows] at hrow
    have := t.lastId_ok row (t.mem_versionRows.mp hrow).1
    exact decide_eq_false (by omega)
  · intro row hrow
    obtain ⟨-, hrow⟩ := (mem_versionRows _).mp hrow
    exact decide_eq_false (hrow ▸ hfile)

theorem group_addRow :
    (t.addRow filmId filename version maxVersion start).group (filmId, filename) =
      addVersion version.toInt maxVersion.toInt (t.group (filmId, filename)) := by
  simp [group, versionRows_addRow, addVersion, VersionRow.pair]

theorem group_addRow_of_ne (hfile : file ≠ (filmId, filename)) :
    (t.addRow filmId filename version maxVersion start).group file = t.group file := by
  rw [group, group, versionRows_addRow_of_ne t hfile]

theorem toInt_max (x y : Int32) : (max x y).toInt = max x.toInt y.toInt := by
  have hdef : max x y = if x ≤ y then y else x := rfl
  rw [hdef]
  by_cases hle : x ≤ y
  · rw [if_pos hle, max_eq_right (Int32.le_iff_toInt_le.mp hle)]
  · rw [Int32.le_iff_toInt_le] at hle
    rw [if_neg (Int32.le_iff_toInt_le.not.mpr hle), max_eq_left (by omega)]

theorem toInt_add_one (x : Int32) : (x + 1).toInt = wrapInt32 (x.toInt + 1) := Int32.toInt_add x 1

theorem eq_neg_one_iff {x : Int32} : x = -1 ↔ x.toInt = -1 := Int32.toInt_inj.symm

variable {imgid : Nat} {b : VersionRow} {newversion : Int32}

section

variable (hb : t.row? imgid = some b)
include hb

theorem imageDuplicateWithVersion_cases (newversion : Int32) :
    ((∃ row ∈ t.versionRows b.file, row.version = newversion) ∧
      (t.imageDuplicateWithVersion imgid newversion).1 = t) ∨
    ((¬ ∃ row ∈ t.versionRows b.file, row.version = newversion) ∧
      (t.imageDuplicateWithVersion imgid newversion).1 =
        t.addRow b.filmId b.filename
          (if newversion ≠ -1 then newversion else b.maxVersion + 1)
          (if newversion ≠ -1 then max b.maxVersion newversion else b.maxVersion + 1) 0) := by
  rw [imageDuplicateWithVersion, hb]
  dsimp only
  cases hlast : ((t.versionRows b.file).filter fun a => a.version = newversion).getLast? with
  | some a =>
    obtain ⟨ha, hversion⟩ := mem_filter.mp (mem_of_getLast? hlast)
    exact .inl ⟨⟨a, ha, of_decide_eq_true hversion⟩, rfl⟩
  | none =>
    have hnew : ((t.insert b.filmId b.filename 0 0).versionRows b.file).getLast? =
        some ⟨t.lastId + 1, b.filmId, b.filename, 0, 0⟩ := by
      rw [VersionRow.file, versionRows_insert, getLast?_concat]
    rw [getLast?_eq_none_iff, filter_eq_nil_iff] at hlast
    refine .inr ⟨?_, ?_⟩
    · rintro ⟨row, hrow, hversion⟩
      exact hlast row hrow (decide_eq_true hversion)
    · rw [hnew]
      rfl

theorem group_imageDuplicateWithVersion :
    (t.imageDuplicateWithVersion imgid newversion).1.group b.file =
      duplicateVersion b.maxVersion.toInt newversion.toInt (t.group b.file) := by
  rw [duplicateVersion]
  rcases t.imageDuplicateWithVersion_cases hb newversion with ⟨hold, heq⟩ | ⟨hnew, heq⟩
  · rw [heq, if_pos (t.mem_group_versions.mpr hold)]
  · rw [heq, if_neg (t.mem_group_versions.not.mpr hnew)]
    refine t.group_addRow.trans ?_
    by_cases hnext : newversion = -1
    · rw [if_neg (not_not.mpr hnext), if_neg (not_not.mpr hnext), if_pos (eq_neg_one_iff.mp hnext),
        toInt_add_one]
      rfl
    · rw [if_pos hnext, if_pos hnext, if_neg (eq_neg_one_iff.not.mp hnext), toInt_max]
      rfl

theorem group_imageDuplicateWithVersion_of_ne (hfile : file ≠ b.file) :
    (t.imageDuplicateWithVersion imgid newversion).1.group file = t.group file := by
  rcases t.imageDuplicateWithVersion_cases hb newversion with ⟨-, heq⟩ | ⟨-, heq⟩
  · rw [heq]
  · rw [heq, t.group_addRow_of_ne hfile]

end

def FirstRow (id : Nat) (file : Int × Path) : Prop :=
  ∃ row, (t.versionRows file).head? = some row ∧ row.id = id

variable {id : Nat} {file : Int × Path}

theorem FirstRow.row? (h : t.FirstRow id file) :
    ∃ row, t.row? id = some row ∧ row.file = file ∧
      row.maxVersion.toInt = (t.group file).firstMax := by
  obtain ⟨row, hhead, hid⟩ := h
  obtain ⟨hmem, hfile⟩ := t.mem_versionRows.mp (mem_of_head? hhead)
  refine ⟨row, t.row?_eq_some.mpr ⟨hmem, hid⟩, hfile, ?_⟩
  rw [group, firstMax, head?_map, hhead]
  rfl

theorem FirstRow.update (h : t.FirstRow id file) (p : VersionRow → Bool)
    (set : VersionRow → Int32 × Int32) : (t.update p set).FirstRow id file := by
  obtain ⟨row, hhead, hid⟩ := h
  refine ⟨setRow p set row, ?_, by rw [setRow_id, hid]⟩
  rw [versionRows_update, head?_map, hhead]
  rfl

theorem FirstRow.addRow (h : t.FirstRow id (filmId, filename)) :
    (t.addRow filmId filename version maxVersion start).FirstRow id (filmId, filename) := by
  obtain ⟨row, hhead, hid⟩ := h
  refine ⟨{ row with maxVersion := maxVersion }, ?_, hid⟩
  rw [versionRows_addRow, head?_append, head?_map, hhead]
  rfl

theorem FirstRow.imageDuplicateWithVersion (h : t.FirstRow id file) (newversion : Int32) :
    (t.imageDuplicateWithVersion id newversion).1.FirstRow id file := by
  obtain ⟨b, hb, hfile, -⟩ := h.row?
  rcases t.imageDuplicateWithVersion_cases hb newversion with ⟨-, heq⟩ | ⟨-, heq⟩
  · rw [heq]
    exact h
  · rw [heq]
    rw [← hfile] at h ⊢
    exact h.addRow t

theorem group_readRest (h : t.FirstRow id file) (filename : Path) (files : List Path) :
    (files.foldl (fun t xmp =>
        (t.imageDuplicateWithVersion id (sidecarVersion filename xmp)).1) t).group file =
      readRest (t.group file) (files.map fun xmp => (sidecarVersion filename xmp).toInt) ∧
    ∀ file', file' ≠ file → (files.foldl (fun t xmp =>
        (t.imageDuplicateWithVersion id (sidecarVersion filename xmp)).1) t).group file' =
      t.group file' := by
  induction files generalizing t with
  | nil => exact ⟨rfl, fun _ _ => rfl⟩
  | cons xmp files ih =>
    obtain ⟨b, hb, hfile, hmax⟩ := h.row?
    obtain ⟨hsame, hother⟩ := ih _ (h.imageDuplicateWithVersion t (sidecarVersion filename xmp))
    constructor
    · rw [foldl_cons, hsame, ← hfile, t.group_imageDuplicateWithVersion hb, hmax, hfile]
      rfl
    · intro file' hne
      rw [foldl_cons, hother file' hne]
      exact t.group_imageDuplicateWithVersion_of_ne hb (hfile ▸ hne)

theorem group_update_first {others : List VersionRow} (hrows : t.versionRows file = row :: others)
    (v : Int32) :
    (t.update (fun r => r.id = row.id) fun _ => (v, v)).group file =
      (v.toInt, v.toInt) :: others.map VersionRow.pair := by
  have hids : (row :: others).Pairwise fun r s => r.id < s.id := hrows ▸ t.ids.filter _
  have hothers : ∀ r ∈ others,
      setRow (fun r => r.id = row.id) (fun _ => (v, v)) r = id r := by
    intro r hr
    have hne : r.id ≠ row.id := Nat.ne_of_gt ((pairwise_cons.mp hids).1 r hr)
    rw [setRow, if_neg (by simpa using hne)]
    rfl
  rw [group, versionRows_update, hrows, map_cons, map_congr_left hothers, map_id, setRow,
    if_pos (by simp)]
  rfl

theorem group_update_of_ne (hrow : row ∈ t.versionRows file) (set : VersionRow → Int32 × Int32)
    {file' : Int × Path} (hfile : file' ≠ file) :
    (t.update (fun r => r.id = row.id) set).group file' = t.group file' := by
  rw [group, group, versionRows_update_of_not]
  intro r hr
  obtain ⟨hmem, hrfile⟩ := t.mem_versionRows.mp hr
  obtain ⟨hrowmem, hrowfile⟩ := t.mem_versionRows.mp hrow
  refine decide_eq_false fun hid => hfile ?_
  have hfound := t.row?_eq_some.mpr ⟨hmem, hid⟩
  rw [t.row?_eq_some.mpr ⟨hrowmem, rfl⟩] at hfound
  rw [← hrfile, ← Option.some.inj hfound, hrowfile]

theorem group_imageReadDuplicates (h : t.FirstRow id file) (filename : Path) (files : List Path) :
    (t.imageReadDuplicates id filename files).group file =
      readVersions (t.group file) (files.map fun xmp => (sidecarVersion filename xmp).toInt) ∧
    ∀ file', file' ≠ file →
      (t.imageReadDuplicates id filename files).group file' = t.group file' := by
  obtain ⟨row, hhead, rfl⟩ := h
  have hrow : row ∈ t.versionRows file := mem_of_head? hhead
  obtain ⟨others, hrows⟩ : ∃ others, t.versionRows file = row :: others :=
    ⟨_, eq_cons_of_mem_head? hhead⟩
  have hgroup : t.group file = row.pair :: others.map VersionRow.pair := by
    rw [group, hrows, map_cons]
  cases files with
  | nil =>
    rw [hgroup]
    exact ⟨hgroup, fun _ _ => rfl⟩
  | cons xmp files =>
    obtain ⟨hsame, hother⟩ := group_readRest _
      (FirstRow.update t ⟨row, hhead, rfl⟩ (fun r => r.id = row.id)
        fun _ => (sidecarVersion filename xmp, sidecarVersion filename xmp)) filename files
    constructor
    · rw [hgroup]
      exact hsame.trans (by rw [t.group_update_first hrows]; rfl)
    · intro file' hne
      exact (hother file' hne).trans (t.group_update_of_ne hrow _ hne)

/-! ## Steps -/

theorem group_imageImportInternal {c : ImportCall} {filename : Path}
    (hname : c.filename? = some filename) :
    (t.imageImportInternal c).group (c.filmId, fileBasename filename) =
      readVersions
        (if t.group (c.filmId, fileBasename filename) = [] then [(0, 0)]
          else t.group (c.filmId, fileBasename filename))
        (c.files.map fun xmp => (sidecarVersion filename xmp).toInt) ∧
    ∀ file', file' ≠ (c.filmId, fileBasename filename) →
      (t.imageImportInternal c).group file' = t.group file' := by
  rw [imageImportInternal, hname]
  dsimp only
  cases hhead : (t.versionRows (c.filmId, fileBasename filename)).head? with
  | some row =>
    have hne : t.group (c.filmId, fileBasename filename) ≠ [] := by
      intro hnil
      rw [group, map_eq_nil_iff] at hnil
      rw [hnil] at hhead
      cases hhead
    rw [if_neg hne]
    exact t.group_imageReadDuplicates ⟨row, hhead, rfl⟩ filename c.files
  | none =>
    rw [head?_eq_none_iff] at hhead
    have hnil : t.group (c.filmId, fileBasename filename) = [] := by rw [group, hhead]; rfl
    have hrows := t.versionRows_insert c.filmId (fileBasename filename) 0 0
    rw [hhead] at hrows
    have hinserted : (t.insert c.filmId (fileBasename filename) 0 0).group
        (c.filmId, fileBasename filename) = [(0, 0)] := by
      rw [group, hrows]
      rfl
    rw [if_pos hnil, hrows]
    obtain ⟨hsame, hother⟩ := group_imageReadDuplicates _
      ⟨_, by rw [hrows]; rfl, rfl⟩ filename c.files
    refine ⟨hinserted ▸ hsame, fun file' hne => (hother file' hne).trans ?_⟩
    rw [group, group, t.versionRows_insert_of_ne hne]

theorem toInt_foldl_max (l : List Int32) (x : Int32) :
    (l.foldl max x).toInt = (l.map Int32.toInt).foldl max x.toInt := by
  induction l generalizing x with
  | nil => rfl
  | cons y l ih => rw [foldl_cons, ih, map_cons, foldl_cons, toInt_max]

theorem foldl_max_insert (filmId : Int) (filename : Path) :
    ((((t.insert filmId filename (-1) (-1)).versionRows (filmId, filename)).map
      VersionRow.maxVersion).foldl max (-1)).toInt =
      ((t.group (filmId, filename)).map Prod.snd).foldl max (-1) := by
  have hsnd : (t.group (filmId, filename)).map Prod.snd =
      ((t.versionRows (filmId, filename)).map VersionRow.maxVersion).map Int32.toInt := by
    simp [group, VersionRow.pair]
  have hlow : (-1 : Int) ≤ ((t.group (filmId, filename)).map Prod.snd).foldl max (-1) :=
    le_foldl_max.mpr (.inl le_rfl)
  rw [versionRows_insert, toInt_foldl_max, map_append, map_append, foldl_append, ← hsnd]
  exact max_eq_left hlow

theorem dtImageCopyRename_eq {c : CopyCall} {newFilename : Path}
    (hb : t.row? c.imgid = some b) (hname : c.newFilename? b.filename = some newFilename) :
    ∃ version : Int32, t.dtImageCopyRename c = t.addRow c.filmId newFilename version version (-1) ∧
      addVersion version.toInt version.toInt (t.group (c.filmId, newFilename)) =
        (t.group (c.filmId, newFilename)).copyVersion := by
  have hlast : ((t.insert c.filmId newFilename (-1) (-1)).versionRows
      (c.filmId, newFilename)).getLast? =
      some ⟨t.lastId + 1, c.filmId, newFilename, -1, -1⟩ := by
    rw [versionRows_insert, getLast?_concat]
  have hmax := t.foldl_max_insert c.filmId newFilename
  rw [dtImageCopyRename, hb]
  dsimp only
  rw [hname]
  dsimp only
  rw [hlast]
  refine ⟨_, rfl, ?_⟩
  rw [copyVersion, ← hmax]
  have hzero : ∀ x : Int32, 0 ≤ x ↔ 0 ≤ x.toInt := fun x => Int32.le_iff_toInt_le
  simp only [hzero]
  split
  · rw [toInt_add_one]
  · rfl

/-- The versions of the sidecar files fit, and there is a number for the next version. -/
def Fits : VersionEvent → Prop
  | .imported c => ∀ filename ∈ c.filename?,
      SidecarsFit (t.group (c.filmId, fileBasename filename)).tail
        (c.files.map fun xmp => (sidecarVersion filename xmp).toInt)
  | .duplicated imgid newversion => ∀ b ∈ t.row? imgid, newversion = -1 →
      (∃ row ∈ t.versionRows b.file, row.version = -1) ∨ b.maxVersion.toInt < 2147483647
  | .copied c => ∀ b ∈ t.row? c.imgid, ∀ newFilename ∈ c.newFilename? b.filename,
      ∀ row ∈ t.versionRows (c.filmId, newFilename), row.maxVersion.toInt < 2147483647

variable {t}

section

variable (h : t.Consistent)
include h

theorem step_imported_consistent_iff (c : ImportCall) :
    (t.step (.imported c)).Consistent ↔ t.Fits (.imported c) := by
  cases hname : c.filename? with
  | none =>
    have hself : t.step (.imported c) = t := by rw [step, imageImportInternal, hname]
    rw [hself, Fits, hname]
    simpa using h
  | some filename =>
    obtain ⟨hsame, hother⟩ := t.group_imageImportInternal hname
    have hok := t.consistent_iff.mp h (c.filmId, fileBasename filename)
    have hrange := t.group_inRange (c.filmId, fileBasename filename)
    rw [step, consistent_iff_of_group h _ hother, hsame, Fits, hname]
    have hvs : ∀ v ∈ c.files.map fun xmp => (sidecarVersion filename xmp).toInt, InInt32 v := by
      intro v hv
      obtain ⟨xmp, -, rfl⟩ := mem_map.mp hv
      exact inInt32_toInt _
    simp only [Option.mem_some_iff, forall_eq']
    cases hgroup : t.group (c.filmId, fileBasename filename) with
    | nil =>
      have hstart : Ok [(0, 0)] := by simp [Ok, versions]
      have hzero : InRange [(0, 0)] := by simp [InRange, InInt32]
      exact readVersions_ok_iff hstart hzero hvs
    | cons p others =>
      rw [hgroup] at hok hrange
      exact readVersions_ok_iff hok hrange hvs

theorem step_duplicated_consistent_iff (imgid : Nat) (newversion : Int32) :
    (t.step (.duplicated imgid newversion)).Consistent ↔ t.Fits (.duplicated imgid newversion) := by
  cases hb : t.row? imgid with
  | none =>
    have hself : t.step (.duplicated imgid newversion) = t := by
      rw [step, imageDuplicateWithVersion, hb]
    rw [hself, Fits, hb]
    simpa using h
  | some b =>
    have hok := t.consistent_iff.mp h b.file
    have hmem : b.pair ∈ t.group b.file :=
      mem_map_of_mem (t.mem_versionRows.mpr ⟨(t.row?_eq_some.mp hb).1, rfl⟩)
    rw [step, consistent_iff_of_group h b.file
      fun file' => t.group_imageDuplicateWithVersion_of_ne hb,
      t.group_imageDuplicateWithVersion hb, Fits, hb]
    have hdup := duplicateVersion_ok_iff hok hmem (t.group_inRange _ _ hmem) newversion.toInt
    refine hdup.trans ?_
    simp only [Option.mem_some_iff, forall_eq', ← eq_neg_one_iff]
    refine forall_congr' fun hnext => ?_
    rw [t.mem_group_versions, hnext]
    rfl

theorem step_copied_consistent_iff (c : CopyCall) :
    (t.step (.copied c)).Consistent ↔ t.Fits (.copied c) := by
  cases hb : t.row? c.imgid with
  | none =>
    have hself : t.step (.copied c) = t := by rw [step, dtImageCopyRename, hb]
    rw [hself, Fits, hb]
    simpa using h
  | some b =>
    cases hname : c.newFilename? b.filename with
    | none =>
      have hself : t.step (.copied c) = t := by
        rw [step, dtImageCopyRename, hb]
        dsimp only
        rw [hname]
      rw [hself, Fits, hb]
      simpa [hname] using h
    | some newFilename =>
      obtain ⟨version, heq, hcopy⟩ := t.dtImageCopyRename_eq hb hname
      have hok := t.consistent_iff.mp h (c.filmId, newFilename)
      rw [step, heq, consistent_iff_of_group h (c.filmId, newFilename)
        fun file' => t.group_addRow_of_ne, t.group_addRow, hcopy,
        copyVersion_ok_iff hok (t.group_inRange _), Fits, hb]
      simp [hname, group, VersionRow.pair]

theorem step_consistent_iff (e : VersionEvent) : (t.step e).Consistent ↔ t.Fits e := by
  cases e with
  | imported c => exact step_imported_consistent_iff h c
  | duplicated imgid newversion => exact step_duplicated_consistent_iff h imgid newversion
  | copied c => exact step_copied_consistent_iff h c

end

theorem empty_consistent : empty.Consistent :=
  fun _ => ⟨nodup_nil, fun _ h => absurd h not_mem_nil⟩

/-- The versions stay apart and known along a run exactly if every step of it fits. -/
theorem run_consistent_iff (events : List VersionEvent) :
    AllStates step Consistent empty events ↔ AllSteps step Fits empty events :=
  allStates_iff_allSteps (fun _ e h => step_consistent_iff h e) empty_consistent

end VersionTable

def importRaf (files : List Path) : VersionEvent :=
  .imported {
    filmId := 1
    normalizedFilename := some "/p/a.raf".toList
    isRegular := true
    fileSize := 1
    overrideIgnoreJpegs := true
    ignoreJpegs := false
    supported := ["raf".toList]
    files := files }

def reimport : List VersionEvent :=
  [importRaf [], .duplicated 1 (-1), importRaf ["/p/a.raf.xmp".toList, "/p/a_01.raf.xmp".toList]]

/-- Importing a file again makes its first image forget the duplicate, and the next duplicate gets
the number of that one. -/
theorem reimport_not_consistent :
    (reimport.foldl VersionTable.step VersionTable.empty).rows =
        [⟨1, 1, "a.raf".toList, 0, 0⟩, ⟨2, 1, "a.raf".toList, 1, 1⟩] ∧
      ¬ (reimport.foldl VersionTable.step VersionTable.empty).Consistent ∧
      ((reimport ++ [VersionEvent.duplicated 1 (-1)]).foldl VersionTable.step
          VersionTable.empty).rows =
        [⟨1, 1, "a.raf".toList, 0, 1⟩, ⟨2, 1, "a.raf".toList, 1, 1⟩,
          ⟨3, 1, "a.raf".toList, 1, 1⟩] := by
  have hrows : (reimport.foldl step empty).rows =
      [⟨1, 1, "a.raf".toList, 0, 0⟩, ⟨2, 1, "a.raf".toList, 1, 1⟩] := by decide +kernel
  refine ⟨hrows, fun h => ?_, by decide +kernel⟩
  have hknown := (h (1, "a.raf".toList)).2 ⟨1, 1, "a.raf".toList, 0, 0⟩
    (by rw [mem_versionRows]; decide) ⟨2, 1, "a.raf".toList, 1, 1⟩
    (by rw [mem_versionRows, hrows]; decide)
  cases hknown

end DTLite
