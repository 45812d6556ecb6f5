import DTLite.Common.Image

/-!
# Versions of an image

Several rows of `main.images` can stand for one file. They differ in their `version`, and each has a
`max_version`, the highest version so far. Importing, duplicating and copying set both columns with
statements of their own.
-/

namespace DTLite

open Reasoning List

/-- What a row of `main.images` says about its file and version. -/
structure VersionRow where
  id : Nat
  filmId : Int
  filename : Path
  version : Int32
  maxVersion : Int32
deriving DecidableEq

def VersionRow.file (row : VersionRow) : Int × Path := (row.filmId, row.filename)

/-- `main.images`, in the order of the ids. -/
structure VersionTable where
  rows : List VersionRow
  -- `sqlite_sequence`, as the key is `AUTOINCREMENT`
  lastId : Nat
  ids : rows.Pairwise fun r s => r.id < s.id
  lastId_ok : ∀ row ∈ rows, row.id ≤ lastId

namespace VersionTable

def empty : VersionTable where
  rows := []
  lastId := 0
  ids := List.Pairwise.nil
  lastId_ok _ h := absurd h not_mem_nil

variable (t : VersionTable)

-- `INSERT INTO main.images`
def insert (filmId : Int) (filename : Path) (version maxVersion : Int32) : VersionTable where
  rows := t.rows ++ [⟨t.lastId + 1, filmId, filename, version, maxVersion⟩]
  lastId := t.lastId + 1
  ids := by
    rw [pairwise_append]
    refine ⟨t.ids, pairwise_singleton _ _, ?_⟩
    intro row hrow new hnew
    rw [mem_singleton.mp hnew]
    exact Nat.lt_succ_of_le (t.lastId_ok row hrow)
  lastId_ok := by
    intro row hrow
    rcases mem_append.mp hrow with hrow | hnew
    · exact (t.lastId_ok row hrow).trans (Nat.le_succ _)
    · rw [mem_singleton.mp hnew]

-- what an `UPDATE main.images SET version = …, max_version = …` makes of a row
def setRow (p : VersionRow → Bool) (set : VersionRow → Int32 × Int32) (row : VersionRow) :
    VersionRow :=
  if p row then { row with version := (set row).1, maxVersion := (set row).2 } else row

def update (p : VersionRow → Bool) (set : VersionRow → Int32 × Int32) : VersionTable where
  rows := t.rows.map (setRow p set)
  lastId := t.lastId
  ids := by
    rw [pairwise_map]
    refine t.ids.imp fun {r s} hlt => ?_
    unfold setRow
    split <;> split <;> exact hlt
  lastId_ok := by
    intro row hrow
    obtain ⟨old, hold, rfl⟩ := mem_map.mp hrow
    unfold setRow
    split <;> exact t.lastId_ok old hold

-- `UPDATE main.images SET version=?1 WHERE id = ?2`
def setVersion (id : Nat) (version : Int32) : VersionTable :=
  t.update (fun row => row.id = id) fun row => (version, row.maxVersion)

-- `UPDATE main.images SET max_version=?1 WHERE film_id = ?2 AND filename = ?3`
def setMaxVersion (file : Int × Path) (maxVersion : Int32) : VersionTable :=
  t.update (fun row => row.file = file) fun row => (row.version, maxVersion)

def row? (id : Nat) : Option VersionRow := t.rows.find? fun row => row.id = id

def versionRows (file : Int × Path) : List VersionRow := t.rows.filter fun row => row.file = file

/-- The table and the new id, `none` for -1. -/
def imageDuplicateWithVersion (imgid : Nat) (newversion : Int32) : VersionTable × Option Nat :=
  match t.row? imgid with
  | none => (t, none)
  | some b =>
      -- `ORDER BY a.id DESC`
      match ((t.versionRows b.file).filter fun a => a.version = newversion).getLast? with
      -- requested version is already present in DB, so we just return it
      | some a => (t, some a.id)
      | none =>
          -- both versions are `NULL` until they are set below
          let t := t.insert b.filmId b.filename 0 0
          match (t.versionRows b.file).getLast? with
          | none => (t, none)
          | some a =>
              let version := if newversion ≠ -1 then newversion else b.maxVersion + 1
              let maxVersion :=
                if newversion ≠ -1 then max b.maxVersion newversion else b.maxVersion + 1
              ((t.setVersion a.id version).setMaxVersion a.file maxVersion, some a.id)

end VersionTable

-- The `int` of what `strtol` gives
def atoi (text : Path) : Int32 :=
  let value := ((strtol text).map Prod.fst).getD 0
  Int32.ofInt (min 9223372036854775807 (max (-9223372036854775808) value))

/-- The version that `_image_read_duplicates` takes from the name of a sidecar file. -/
def sidecarVersion (filename xmpfilename : Path) : Int32 :=
  -- this is an xmp file without version number which corresponds to version 0
  if xmpfilename = filename ++ xmpExt then 0
  else
    -- up to the dot of the image's extension
    let stem := (lastSplit '.' (xmpfilename.take (xmpfilename.length - xmpExt.length))).1
    -- behind the last underscore
    atoi (if '_' ∈ stem then (lastSplit '_' stem).2.tail else stem.tail)

namespace VersionTable

variable (t : VersionTable)

/-- `files` being what `dt_image_find_duplicates` gives. -/
def imageReadDuplicates (id : Nat) (filename : Path) (files : List Path) : VersionTable :=
  match files with
  | [] => t
  | xmpfilename :: files =>
      -- this is the first xmp processed, just update the passed-in id
      let version := sidecarVersion filename xmpfilename
      files.foldl (fun t xmpfilename =>
          -- create a new duplicate based on the passed-in id
          (t.imageDuplicateWithVersion id (sidecarVersion filename xmpfilename)).1)
        (t.update (fun row => row.id = id) fun _ => (version, version))

end VersionTable

/-- A call of `_image_import_internal` and what it meets. -/
structure ImportCall where
  filmId : Int
  -- `dt_util_normalize_path`
  normalizedFilename : Option Path
  isRegular : Bool
  fileSize : Nat
  overrideIgnoreJpegs : Bool
  -- `ui_last/import_ignore_jpegs`
  ignoreJpegs : Bool
  -- `dt_supported_extensions`
  supported : List Path
  -- `dt_image_find_duplicates`
  files : List Path

-- from the last dot of the name, or the whole name
def fileExt (filename : Path) : Path := (lastSplit '.' filename).2

-- `g_path_get_basename` of the path of a file
def fileBasename (filename : Path) : Path :=
  if '/' ∈ filename then (lastSplit '/' filename).2.tail else filename

-- the checks in front of the database
def isImportable (c : ImportCall) (filename : Path) : Bool :=
  let cc := (fileExt filename).map Char.toLower
  let ext := cc.tail
  c.isRegular && c.fileSize != 0 &&
    !(cc = ".dt".toList || cc = ".dttags".toList || cc = xmpExt) &&
    !(!c.overrideIgnoreJpegs && (ext = "jpg".toList || ext = "jpeg".toList) && c.ignoreJpegs) &&
    ext ∈ c.supported

def ImportCall.filename? (c : ImportCall) : Option Path :=
  c.normalizedFilename.filter (isImportable c)

def VersionTable.imageImportInternal (t : VersionTable) (c : ImportCall) : VersionTable :=
  match c.filename? with
  | none => t
  | some filename =>
      let file := (c.filmId, fileBasename filename)
      match (t.versionRows file).head? with
      | some row => t.imageReadDuplicates row.id filename c.files
      | none =>
          -- insert a v0 record (which may be updated later if no v0 xmp exists)
          let t := t.insert c.filmId (fileBasename filename) 0 0
          match (t.versionRows file).head? with
          | some row => t.imageReadDuplicates row.id filename c.files
          | none => t

/-- A call of `dt_image_copy_rename` and what it meets. -/
structure CopyCall where
  imgid : Nat
  filmId : Int
  newname : Option Path
  -- whether the film roll has a folder
  hasFolder : Bool
  -- `g_file_get_basename` of the destination
  destBasename : Path
  -- copied, or already there
  copied : Bool

-- the name of the copy of a file, if the file can be copied
def CopyCall.newFilename? (c : CopyCall) (filename : Path) : Option Path :=
  if c.hasFolder && c.copied then
    match c.newname with
    -- it must not refer to a file outside of the new folder
    | some newname => if newname = c.destBasename then some newname else none
    | none => some filename
  else none

def VersionTable.dtImageCopyRename (t : VersionTable) (c : CopyCall) : VersionTable :=
  match t.row? c.imgid with
  | none => t
  | some b =>
      match c.newFilename? b.filename with
      | none => t
      | some newFilename =>
          let file := (c.filmId, newFilename)
          let t := t.insert c.filmId newFilename (-1) (-1)
          match (t.versionRows file).getLast? with
          | none => t
          | some a =>
              -- get max_version of image duplicates in destination filmroll
              let maxVersion := ((t.versionRows file).map VersionRow.maxVersion).foldl max (-1)
              let maxVersion := if 0 ≤ maxVersion then maxVersion + 1 else 0
              (t.setVersion a.id maxVersion).setMaxVersion file maxVersion

inductive VersionEvent where
  | imported (c : ImportCall)
  | duplicated (imgid : Nat) (newversion : Int32)
  | copied (c : CopyCall)

def VersionTable.step (t : VersionTable) : VersionEvent → VersionTable
  | .imported c => t.imageImportInternal c
  | .duplicated imgid newversion => (t.imageDuplicateWithVersion imgid newversion).1
  | .copied c => t.dtImageCopyRename c

/-- The rows of a file have different versions, and each knows the highest of them. -/
def VersionTable.Consistent (t : VersionTable) : Prop :=
  ∀ file, ((t.versionRows file).map VersionRow.version).Nodup ∧
    ∀ r ∈ t.versionRows file, ∀ s ∈ t.versionRows file, s.version ≤ r.maxVersion

end DTLite
