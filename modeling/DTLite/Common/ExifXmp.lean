import DTLite.Common.HistoryHash
import DTLite.Common.XmpBlob
import DTLite.Reasoning.KeyValue

/-!
# Sidecars

`_exif_xmp_read_data` puts an image's history, masks and module order into XMP data, and
`dt_exif_xmp_read` takes them out again. XMP data are keys with texts, in the order in which they
were added.
-/

namespace DTLite

open Reasoning

abbrev XmpData := List (Text × Text)

/-- With `toLong()` of exiv2, which reads what it has written. -/
structure Exiv2 extends Zlib where
  toLong : Text → Int
  toLong_printInt : ∀ n, toLong (printInt n) = n

instance : Coe Exiv2 Zlib := ⟨Exiv2.toZlib⟩

def storedExiv2 : Exiv2 where
  __ := storedZlib
  toLong value := ((strtol value).map Prod.fst).getD 0
  toLong_printInt n := by rw [strtol_printInt, Option.map_some, Option.getD_some]

def xmpVersionKey : Text := "Xmp.darktable.xmp_version".toList
def autoPresetsAppliedKey : Text := "Xmp.darktable.auto_presets_applied".toList
def masksHistoryKey : Text := "Xmp.darktable.masks_history".toList
def historyKey : Text := "Xmp.darktable.history".toList
def historyEndKey : Text := "Xmp.darktable.history_end".toList
def iopOrderVersionKey : Text := "Xmp.darktable.iop_order_version".toList
def iopOrderListKey : Text := "Xmp.darktable.iop_order_list".toList
def basicHashKey : Text := "Xmp.darktable.history_basic_hash".toList
def autoHashKey : Text := "Xmp.darktable.history_auto_hash".toList
def currentHashKey : Text := "Xmp.darktable.history_current_hash".toList

def masksArray : Text := "Xmp.darktable.masks_history[".toList
def historyArray : Text := "Xmp.darktable.history[".toList

-- `Xmp.darktable.masks_history[%d]/darktable:…`.
def masksFieldKey (num : Nat) (field : String) : Text :=
  masksArray ++ printInt num ++ "]/darktable:".toList ++ field.toList

-- `Xmp.darktable.history[%d]/darktable:…`.
def historyFieldKey (num : Nat) (field : String) : Text :=
  historyArray ++ printInt num ++ "]/darktable:".toList ++ field.toList

section Write

variable (z : Zlib) (config : CompressXmpTags)

def masksFields (row : MasksRow) : List (String × Text) :=
  [("mask_num", printInt (columnInt row.num)),
    ("mask_id", printInt (columnInt row.formid)),
    ("mask_type", printInt (columnInt row.form)),
    ("mask_name", (row.name.getD "").toList),
    ("mask_version", printInt (columnInt row.version)),
    ("mask_points", dtExifXmpEncode z config (row.points.getD [])),
    ("mask_nb", printInt (columnInt row.pointsCount)),
    ("mask_src", dtExifXmpEncode z config (row.source.getD []))]

-- "masks history".
def writeMasks : Nat → List MasksRow → XmpData → XmpData
  | _, [], xmp => xmp
  | num, row :: rows, xmp =>
      writeMasks (num + 1) rows (assignAll (masksFieldKey num) (masksFields z config row) xmp)

def historyFields (row : HistoryRow) (operation : String) : List (String × Text) :=
  [("num", printInt (columnInt row.num)),
    ("operation", operation.toList),
    ("enabled", printInt (columnInt row.enabled)),
    ("modversion", printInt (columnInt row.module)),
    ("params", dtExifXmpEncode z config (row.opParams.getD [])),
    ("multi_name", (row.multiName.getD "").toList),
    ("multi_priority", printInt (columnInt row.multiPriority))]
    ++ match columnBlob row.blendopParams with
      | some blend =>
          [("blendop_version", printInt (columnInt row.blendopVersion)),
            ("blendop_params", dtExifXmpEncode z config blend)]
      | none => []

-- "history stack"; the number that the next entry would have comes with it.
def writeHistory : Nat → List HistoryRow → XmpData → XmpData × Nat
  | num, [], xmp => (xmp, num)
  | num, row :: rows, xmp =>
      match row.operation with
      -- no op is fatal
      | none => writeHistory num rows xmp
      | some operation =>
          writeHistory (num + 1) rows
            (assignAll (historyFieldKey num) (historyFields z config row operation) xmp)

variable (db : Database) (imgid : ImgId)

def dtSetXmpDtHistory (historyEnd : Int) (xmp : XmpData) :
    XmpData :=
  let xmp := xmp ++ [(masksHistoryKey, [])]
  let xmp := writeMasks z config 1 (db.masksByNum imgid) xmp
  let xmp := xmp ++ [(historyKey, [])]
  let r := writeHistory z config 1 (db.historyByNum imgid) xmp
  let historyEnd := if historyEnd = -1 then (r.2 : Int) - 1 else min historyEnd (r.2 - 1)
  assign historyEndKey (printInt historyEnd) r.1

-- The version that goes with a module order: a custom one may follow a built-in order.
def xmpOrderVersion (imgid : ImgId) : Int :=
  let version := dtIopprGetIopOrderVersion db imgid
  if version = iopOrderCustom then
    let versionCheck := dtIopprGetIopOrderListKind (dtIopprGetIopOrderList db imgid)
    if versionCheck ≠ iopOrderCustom then versionCheck else version
  else version

-- The module order is written out if it is custom or has a module twice in a row.
def writesOrderList (imgid : ImgId) : Bool :=
  xmpOrderVersion db imgid = iopOrderCustom
    ∨ dtIopprHasMultipleInstances (dtIopprGetIopOrderList db imgid)

-- "we need to read the iop-order list".
def writeOrder (xmp : XmpData) : XmpData :=
  let xmp := assign iopOrderVersionKey (printInt (xmpOrderVersion db imgid)) xmp
  if writesOrderList db imgid then
    assign iopOrderListKey (dtIopprSerializeTextIopOrderList (dtIopprGetIopOrderList db imgid)) xmp
  else xmp

def writeHash (key : Text) (hash : Option Blob) (xmp : XmpData) : XmpData :=
  match columnBlob hash with
  | some hash => assign key (dtExifXmpEncode z config hash) xmp
  | none => xmp

-- "store history hash".
def writeHashes (xmp : XmpData) : XmpData :=
  let hash := (db.historyHash imgid).getD {}
  let xmp := writeHash z config basicHashKey hash.basicHash xmp
  let xmp := writeHash z config autoHashKey hash.autoHash xmp
  writeHash z config currentHashKey hash.currentHash xmp

/-- From the XMP data that `dt_remove_known_keys` leaves. -/
def exifXmpReadData (xmp : XmpData) : XmpData :=
  let historyEnd :=
    match db.images imgid with
    | some image => columnInt image.historyEnd
    | none => -1
  let xmp := assign xmpVersionKey (printInt 4) xmp
  let xmp := assign autoPresetsAppliedKey
    (printInt (if (db.images imgid).any ImageRow.autoPresetsApplied then 1 else 0)) xmp
  let xmp := dtSetXmpDtHistory z config db imgid historyEnd xmp
  let xmp := writeOrder db imgid xmp
  writeHashes z config db imgid xmp

end Write

/-! ## Reading the history stack -/

/-- `history_entry_t`. What is not read yet is `none`; `params` is `some none` if it could not be
decoded. -/
structure HistoryEntry where
  operation : Option String := none
  enabled : Bool := false
  modversion : Option Int := none
  params : Option (Option Blob) := none
  multiName : Option String := none
  multiPriority : Int := 0
  -- default version in case it's not specified
  blendopVersion : Int := 1
  blendopParams : Option Blob := none
  num : Int := 0
deriving DecidableEq, Repr

inductive HistoryField where
  | operation
  | num
  | enabled
  | modversion
  | params
  | multiName
  | multiPriority
  | iopOrder
  | blendopVersion
  | blendopParams
deriving DecidableEq, Repr

-- In the order of the tests.
def historyFieldNames : List (Text × HistoryField) :=
  [("darktable:operation".toList, .operation),
    ("darktable:num".toList, .num),
    ("darktable:enabled".toList, .enabled),
    ("darktable:modversion".toList, .modversion),
    ("darktable:params".toList, .params),
    ("darktable:multi_name".toList, .multiName),
    ("darktable:multi_priority".toList, .multiPriority),
    ("darktable:iop_order".toList, .iopOrder),
    ("darktable:blendop_version".toList, .blendopVersion),
    ("darktable:blendop_params".toList, .blendopParams)]

def historyField? (keyIter : Text) : Option HistoryField :=
  (historyFieldNames.find? fun name => name.1.isPrefixOf keyIter).map Prod.snd

variable (z : Exiv2)

-- "go on reading things into current_entry".
def HistoryEntry.set (entry : HistoryEntry) (value : Text) : Option HistoryField → HistoryEntry
  | some .operation => { entry with operation := some (String.ofList value) }
  | some .num => { entry with num := z.toLong value }
  | some .enabled => { entry with enabled := z.toLong value == 1 }
  | some .modversion => { entry with modversion := some (z.toLong value) }
  | some .params => { entry with params := some (dtExifXmpDecode z value) }
  | some .multiName => { entry with multiName := some (String.ofList value) }
  | some .multiPriority => { entry with multiPriority := z.toLong value }
  | some .blendopVersion => { entry with blendopVersion := z.toLong value }
  | some .blendopParams => { entry with blendopParams := dtExifXmpDecode z value }
  -- kept for compatibility with xmp version < 4
  | some .iopOrder => entry
  | none => entry

-- The entries so far, and the place of `current_entry` among them.
structure HistoryScan where
  entries : List HistoryEntry
  current : Option Nat
deriving DecidableEq, Repr

variable (s : HistoryScan)

-- "make sure we are filling in the details of the correct entry". The number is unsigned, and XMP
-- starts counting at 1.
def HistoryScan.select (n : Int) : HistoryScan :=
  if n < 0 ∨ s.entries.length < n then
    { entries := s.entries ++ [{}], current := some s.entries.length }
  else if n < s.entries.length then
    { s with current := if n = 0 then none else some (n - 1).toNat }
  else s

-- A field of the current entry. The source reads through `NULL` where there is none.
def HistoryScan.fill (value : Text) (field : Option HistoryField) : Option HistoryScan :=
  s.current.map fun i => ⟨s.entries.modify i (·.set z value field), s.current⟩

-- The rest of a key behind its number `n`, `none` if the history is given up.
def readArrayItem (n : Int) (value : Text) : Text → Option HistoryScan
  | ']' :: '/' :: keyIter =>
      let keyIter := if keyIter.head? = some '?' then keyIter.tail else keyIter
      (s.select n).fill z value (historyField? keyIter)
  -- skip everything that isn't part of the actual array
  | ']' :: _ => some s
  | _ => none

def readHistoryKey (datum : Text × Text) : Option HistoryScan :=
  if historyArray.isPrefixOf datum.1 then
    let keyIter := datum.1.drop historyArray.length
    let r := (strtol keyIter).getD (0, keyIter)
    readArrayItem z s r.1 datum.2 r.2
  else some s

-- `have_operation`, `have_params` and `have_modversion`.
def HistoryEntry.complete (entry : HistoryEntry) : Bool :=
  entry.operation.isSome && entry.params.isSome && entry.modversion.isSome

def readHistoryV2 (xmp : XmpData) : List HistoryEntry :=
  match (xmp.dropWhile fun datum => datum.1 ≠ historyKey).foldlM (readHistoryKey z) ⟨[], none⟩ with
  | some s => if s.entries.all HistoryEntry.complete then s.entries else []
  | none => []

def HistoryEntry.row (imgid : ImgId) (entry : HistoryEntry) : HistoryRow where
  imgid := imgid
  num := some entry.num
  module := some (entry.modversion.getD 0)
  operation := entry.operation
  opParams := entry.params.getD none
  enabled := some (if entry.enabled then 1 else 0)
  blendopParams := entry.blendopParams
  blendopVersion := some entry.blendopVersion
  multiPriority := some entry.multiPriority
  multiName := some (entry.multiName.getD "")

-- `DT_IOP_ORDER_LEGACY`.
def iopOrderLegacy : Int := 1

-- What `dt_exif_xmp_read` leaves, with its return value 0 as `ok`. A flag that is `none` is left as
-- it was.
structure XmpRead where
  db : Database
  ok : Bool
  autoPresetsApplied : Option Bool

def xmpOrderList (version : Int) (xmp : XmpData) : List IopOrderEntry :=
  if version = 4 then
    match valueOf? iopOrderListKey xmp with
    | some text => (dtIopprDeserializeTextIopOrderList text).getD []
    | none => dtIopprGetIopOrderListVersion
        (((valueOf? iopOrderVersionKey xmp).map z.toLong).getD iopOrderLegacy)
  else dtIopprGetIopOrderListVersion iopOrderLegacy

-- The hashes in the XMP data, or else the one of the history. `_image_altered_deprecated` leaves
-- out two arguments of its query, so what it finds is `altered`.
def readHashes (md5 : Blob → Blob) (altered : Bool) (imgid : ImgId) (xmp : XmpData)
    (db : Database) : Database :=
  let basic := (valueOf? basicHashKey xmp).bind (dtExifXmpDecode z)
  let auto := (valueOf? autoHashKey xmp).bind (dtExifXmpDecode z)
  let current := (valueOf? currentHashKey xmp).bind (dtExifXmpDecode z)
  if basic.isSome || auto.isSome || current.isSome then
    dtHistoryHashWrite db imgid basic auto current
  else dtHistoryHashWriteFromHistory md5 db imgid { basic := !altered, current := true }

-- The `history_end` in the XMP data, `none` if it is left to the rows: "we shouldn't change
-- history_end when no history was read!"
def xmpHistoryEnd (num : Nat) (xmp : XmpData) : Option Int :=
  if 0 < num then (valueOf? historyEndKey xmp).map fun value => min (z.toLong value) num else none

/-- With every statement succeeding. No mask is read: nothing fills the list that the masks are
added from. -/
def dtExifXmpRead (md5 : Blob → Blob) (altered : Bool) (db : Database) (imgid : ImgId)
    (xmp : XmpData) : XmpRead :=
  let version := ((valueOf? xmpVersionKey xmp).map z.toLong).getD 0
  let presetApplied := ((valueOf? autoPresetsAppliedKey xmp).map z.toLong).getD 0
  let db := db.deleteMasks imgid
  if 4 < version then { db := db, ok := false, autoPresetsApplied := none }
  else
    let entries := readHistoryV2 z xmp
    let db := (db.deleteHistory imgid).insertHistory (entries.map (·.row imgid))
    let historyEnd := xmpHistoryEnd z entries.length xmp
    let presetApplied :=
      if presetApplied ≠ 0 ∧ (historyEnd = none ∨ historyEnd.any (· < 1)) then -1
      else presetApplied
    let db := db.setHistoryEnd imgid (some (historyEnd.getD (nextNum (db.historyOf imgid))))
    let db := dtIopprWriteIopOrderList db (xmpOrderList z version xmp) imgid
    { db := readHashes z md5 altered imgid xmp db
      ok := true
      autoPresetsApplied := some (0 < presetApplied) }

end DTLite
