import DTLite.Reasoning.Disk
import DTLite.Reasoning.Text
import Mathlib.Data.List.Nodup

/-! The image library of `common/image.c`, `common/grouping.c` and `common/film.c` together with the
files on disk: where an image's original, local copy and sidecar are, local copies set and taken
back, and images removed from the library. -/

namespace DTLite

open Reasoning

abbrev Path := List Char

instance instLawfulBEqPath : LawfulBEq Path := inferInstance

def xmpExt : Path := ".xmp".toList

/-- The part of a row of `main.images` that no statement here changes: its key, its file and its
version. The file name is the last component of a path. -/
structure ImageFile where
  id : Nat
  filmId : Nat
  filename : Path
  version : Nat
  filename_ok : filename ≠ [] ∧ '/' ∉ filename
  deriving DecidableEq

structure Image extends ImageFile where
  groupId : Nat
  localCopy : Bool  -- `DT_IMAGE_LOCAL_COPY`
  remove : Bool     -- `DT_IMAGE_REMOVE`
  deriving DecidableEq

structure FilmRoll where
  id : Nat
  folder : Path
  deriving DecidableEq

/-- The two tables the jobs read and write, with their primary keys. -/
structure Library where
  images : List Image
  filmRolls : List FilmRoll
  images_nodup : (images.map (·.id)).Nodup
  filmRolls_nodup : (filmRolls.map (·.id)).Nodup

namespace Library

variable (lib : Library) (imgid : Nat)

def image? : Option Image := lib.images.find? fun img => img.id = imgid

def filmRoll? (filmId : Nat) : Option FilmRoll := lib.filmRolls.find? fun roll => roll.id = filmId

-- `folder || '/' || filename` of a row, if its film roll is there.
def rowPath? (file : ImageFile) : Option Path :=
  (lib.filmRoll? file.filmId).map fun roll => roll.folder ++ '/' :: file.filename

def path? : Option Path := (lib.image? imgid).bind fun img => lib.rowPath? img.toImageFile

-- What an `UPDATE main.images SET ...` sets in a row.
structure RowUpdate where
  set : Image → Image
  set_file : ∀ img, (set img).toImageFile = img.toImageFile

def RowUpdate.localCopy (on : Bool) : RowUpdate where
  set img := { img with localCopy := on }
  set_file _ := rfl

def RowUpdate.remove : RowUpdate where
  set img := { img with remove := true }
  set_file _ := rfl

def RowUpdate.groupId (groupId : Nat) : RowUpdate where
  set img := { img with groupId }
  set_file _ := rfl

theorem map_set_nodup (u : RowUpdate) (p : Image → Bool) :
    ((lib.images.map fun img => if p img then u.set img else img).map (·.id)).Nodup := by
  have hid : ∀ img : Image, (if p img then u.set img else img).id = img.id := by
    intro img
    split
    · rw [u.set_file]
    · rfl
  rw [List.map_map]
  change (lib.images.map fun img => (if p img then u.set img else img).id).Nodup
  simp only [hid]
  exact lib.images_nodup

-- `UPDATE main.images SET ... WHERE id = imgid`.
def update (u : RowUpdate) : Library where
  images := lib.images.map fun img => if img.id = imgid then u.set img else img
  filmRolls := lib.filmRolls
  images_nodup := by simpa using lib.map_set_nodup u (·.id = imgid)
  filmRolls_nodup := lib.filmRolls_nodup

-- `DELETE FROM main.images WHERE id = imgid`.
def delete : Library where
  images := lib.images.filter fun img => img.id ≠ imgid
  filmRolls := lib.filmRolls
  images_nodup := lib.images_nodup.sublist (List.filter_sublist.map _)
  filmRolls_nodup := lib.filmRolls_nodup

-- Without the directories it may take away.
def dtFilmRemoveEmpty : Library where
  images := lib.images
  filmRolls := lib.filmRolls.filter fun roll => lib.images.any fun img => img.filmId = roll.id
  images_nodup := lib.images_nodup
  filmRolls_nodup := lib.filmRolls_nodup.sublist (List.filter_sublist.map _)

def nbOtherLocalCopyFor : Nat :=
  match lib.image? imgid with
  | none => 0
  | some img => lib.images.countP fun other =>
      other.id ≠ imgid ∧ other.localCopy ∧ other.filmId = img.filmId ∧ other.filename = img.filename

-- The rows of the same file, counted by the delete job.
def duplicates : Nat :=
  match lib.image? imgid with
  | none => 0
  | some img => lib.images.countP fun other =>
      other.filename = img.filename ∧ other.filmId = img.filmId

end Library

/-- What the jobs read from the configuration and the system. -/
structure Conf where
  writeSidecarFiles : Bool
  sendToTrash : Bool
  userCacheDir : Path
  md5 : Path → Path

inductive DialogChoice where
  | delete | deleteAll | remove | continue | stop
  deriving DecidableEq, Repr

/-- How the calls to the file system go and what the user answers, call after call. -/
structure Outcomes where
  fileOp : Nat → Bool
  attempt : Nat → Bool
  answer : Nat → DialogChoice

def Outcomes.AlwaysSucceed (o : Outcomes) : Prop :=
  (∀ n, o.fileOp n = true) ∧ ∀ n, o.attempt n = true

structure World where
  lib : Library
  disk : Disk Path
  fileOps : Nat
  attempts : Nat
  asked : Nat

section Paths

-- The version goes in front of the last dot.
def dtImagePathAppendVersionNoDb (version : Nat) (pathname : Path) : Path :=
  if 0 < version then
    (lastSplit '.' pathname).1 ++ '_' :: printPadded '0' 2 version ++ (lastSplit '.' pathname).2
  else pathname

def dtImagePathAppendVersion (lib : Library) (imgid : Nat) (pathname : Path) : Path :=
  dtImagePathAppendVersionNoDb (((lib.image? imgid).map (·.version)).getD 0) pathname

-- The two names `_image_local_copy_full_path` gives the copy of the file at `filename`.
def localCopyOldName (conf : Conf) (imgid : Nat) (filename : Path) : Path :=
  conf.userCacheDir ++ "/img-".toList ++ Nat.toDigits 10 imgid ++ '-' :: conf.md5 filename ++
    (lastSplit '.' filename).2

def localCopyNewName (conf : Conf) (filename : Path) : Path :=
  conf.userCacheDir ++ "/img-".toList ++ conf.md5 filename ++ (lastSplit '.' filename).2

end Paths

namespace World

variable (conf : Conf) (o : Outcomes) (w : World) (imgid : Nat)

-- `g_file_test`.
def exists? (path : Path) : Bool := path ∈ w.disk.files

def writeFile (path : Path) : World :=
  { w with disk := w.disk.write path (o.fileOp w.fileOps), fileOps := w.fileOps + 1 }

-- `g_file_delete`, its result not looked at.
def deleteFile (path : Path) : World :=
  { w with disk := w.disk.remove path (o.fileOp w.fileOps), fileOps := w.fileOps + 1 }

def updateRow (u : Library.RowUpdate) : World := { w with lib := w.lib.update imgid u }

-- The old name if there is such a file.
def imageLocalCopyFullPath : Path :=
  match w.lib.path? imgid with
  | none => []
  | some filename =>
    if w.exists? (localCopyOldName conf imgid filename) then localCopyOldName conf imgid filename
    else localCopyNewName conf filename

-- The path, and whether it is the local copy's.
def dtImageFullPath (fromCache : Bool) : Path × Bool :=
  let pathname := (w.lib.path? imgid).getD []
  if fromCache then
    let lcPathname := w.imageLocalCopyFullPath conf imgid
    if w.exists? lcPathname then (lcPathname, true) else (pathname, false)
  else (pathname, false)

def dtImageSafeRemove : Bool :=
  if !conf.writeSidecarFiles then true
  else
    let (pathname, fromCache) := w.dtImageFullPath conf imgid true
    if !fromCache then true else !w.exists? (pathname ++ xmpExt)

def dtImageWriteSidecarFile : World :=
  if 0 < imgid ∧ conf.writeSidecarFiles then
    let xmp (filename : Path) : Path := dtImagePathAppendVersion w.lib imgid filename ++ xmpExt
    let (filename, _) := w.dtImageFullPath conf imgid false
    if w.exists? filename then w.writeFile o (xmp filename)
    else
      -- the original is away: the sidecar goes next to the local copy, if there is one
      let (filename, fromCache) := w.dtImageFullPath conf imgid true
      if fromCache then w.writeFile o (xmp filename) else w
  else w

-- With its return value as "failed".
def dtImageLocalCopySet : World × Bool :=
  let (srcpath, _) := w.dtImageFullPath conf imgid false
  let destpath := w.imageLocalCopyFullPath conf imgid
  if !w.exists? srcpath then (w, true)
  else if !w.exists? destpath then
    let w' := w.writeFile o destpath
    if !o.fileOp w.fileOps then (w', true) else (w'.updateRow imgid (.localCopy true), false)
  else (w.updateRow imgid (.localCopy true), false)

def hasLocalCopyFlag : Bool := ((w.lib.image? imgid).map Image.localCopy).getD false

-- The check at the head of `dt_image_local_copy_reset`: edits of the local copy wait for an
-- original that is away.
def localCopyResetRefused : Bool :=
  let destpath := (w.dtImageFullPath conf imgid false).1
  let locppath := (w.dtImageFullPath conf imgid true).1
  w.exists? (dtImagePathAppendVersion w.lib imgid locppath ++ xmpExt) && !w.exists? destpath

-- Its middle part: the cached file goes unless another image uses it, and the sidecar next to it.
def deleteCachedFile (locppath : Path) : World :=
  if w.lib.nbOtherLocalCopyFor imgid = 0 then w.deleteFile o locppath else w

def deleteCachedXmp (locppath : Path) : World :=
  let locpxmp := dtImagePathAppendVersion w.lib imgid locppath ++ xmpExt
  if w.exists? locpxmp then w.deleteFile o locpxmp else w

def localCopyDelete : World :=
  let locppath := w.imageLocalCopyFullPath conf imgid
  if w.exists? locppath ∧ conf.userCacheDir <:+: locppath then
    -- first sync the xmp with the original picture
    let w := w.dtImageWriteSidecarFile conf o imgid
    (w.deleteCachedFile o imgid locppath).deleteCachedXmp o imgid locppath
  else w

-- With its return value as "refused".
def dtImageLocalCopyReset : World × Bool :=
  if !w.hasLocalCopyFlag imgid then (w, false)
  else if w.localCopyResetRefused conf imgid then (w, true)
  else ((w.localCopyDelete conf o imgid).updateRow imgid (.localCopy false), false)

-- The others of a group that loses its representative follow the first of them. Every row that is
-- changed has its sidecar written.
def dtGroupingRemoveFromGroup : World :=
  let regroup (groupId : Nat) (w : World) (other : Nat) : World :=
    (w.updateRow other (.groupId groupId)).dtImageWriteSidecarFile conf o other
  match w.lib.image? imgid with
  | none => w
  | some img =>
    if img.groupId = imgid then
      let others := (w.lib.images.filter fun other =>
        other.groupId = imgid ∧ other.id ≠ imgid).map (·.id)
      others.foldl (regroup (others.headD 0)) w
    else regroup imgid w imgid

def dtImageRemove : World :=
  match w.dtImageLocalCopyReset conf o imgid with
  | (w, true) => w
  | (w, false) =>
    let w := w.dtGroupingRemoveFromGroup conf o imgid
    { w with lib := w.lib.delete imgid }

-- `g_path_get_dirname` and `g_path_get_basename` of a path with a file name at its end.
def pathDirname (pathname : Path) : Path :=
  if '/' ∉ pathname then ['.']
  else
    let dir := (lastSplit '/' pathname).1.rdropWhile (· = '/')
    if dir = [] then ['/'] else dir

def pathBasename (pathname : Path) : Path :=
  if '/' ∉ pathname then pathname else (lastSplit '/' pathname).2.tail

def dtImageSynchAllXmp (pathname : Path) : World :=
  if conf.writeSidecarFiles then
    let rows := w.lib.images.filter fun img =>
      (w.lib.filmRolls.any fun roll => roll.id = img.filmId ∧ roll.folder = pathDirname pathname) ∧
        img.filename = pathBasename pathname
    (rows.map (·.id)).foldl (fun w id => w.dtImageWriteSidecarFile conf o id) w
  else w

def dtFilmRemoveEmpty : World := { w with lib := w.lib.dtFilmRemoveEmpty }

end World

-- A checksum that keeps the capital letters of a path, and a run in which every call succeeds.
def sampleConf : Conf where
  writeSidecarFiles := true
  sendToTrash := true
  userCacheDir := "/c".toList
  md5 filename := filename.filter Char.isUpper

def allSucceed : Outcomes where
  fileOp _ := true
  attempt _ := true
  answer _ := .stop

def sampleImage (id : Nat) (filename : String) (localCopy : Bool)
    (filename_ok : filename.toList ≠ [] ∧ '/' ∉ filename.toList) : Image where
  id := id
  filmId := 1
  filename := filename.toList
  version := 0
  groupId := id
  localCopy := localCopy
  remove := false
  filename_ok := filename_ok

def sampleA (localCopy : Bool) : Image := sampleImage 1 "A.raw" localCopy (by decide)

def sampleWorld (images : List Image) (images_nodup : (images.map (·.id)).Nodup)
    (files : List String) : World where
  lib :=
    { images := images
      filmRolls := [{ id := 1, folder := "/p".toList }]
      images_nodup := images_nodup
      filmRolls_nodup := by decide }
  disk := { files := files.map String.toList, removed := [] }
  fileOps := 0
  attempts := 0
  asked := 0

end DTLite
