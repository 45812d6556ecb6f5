import DTLite.Common.HistoryHash
import DTLite.Develop.Masks

/-! Writing `dev->history` to the library. -/

namespace DTLite

/-- `dt_iop_module_so_t`: what all instances of an operation share. -/
structure IopSo where
  version : Int
  -- `params_size`, which `init` sets to the size of the params struct
  paramsSize : Nat
  -- `flags() & IOP_FLAGS_NO_HISTORY_STACK`
  noHistoryStack : Bool
  -- `flags() & IOP_FLAGS_ONE_INSTANCE`
  oneInstance : Bool
  -- `legacy_params`: the new params, or a failure; it also leaves blend params in the module
  legacyParams : Option (Option Blob → Nat → Nat → Option (Blob × Blob))
  -- the module that `dt_iop_load_module` makes, `none` if it fails
  loadModule : Option IopModule

/-- What is installed: the modules, the blend params of this version and MD5. -/
structure Installation where
  iopSo : String → IopSo
  -- `dt_develop_blend_version()`
  blendVersion : Int
  -- `sizeof(dt_develop_blend_params_t)`
  blendParamsSize : Nat
  md5 : Blob → Blob

variable (inst : Installation) (dev : Develop) (db : Database) (imgid : ImgId)
  (h : HistoryItem ModuleRef)

-- The columns that `dt_dev_write_history_item` sets, over a row.
def writeItemColumns (row : HistoryRow) : HistoryRow :=
  let so := inst.iopSo (dev.mods h.module).op
  { row with
    module := some so.version
    operation := some (dev.mods h.module).op
    opParams := some (h.params.take so.paramsSize)
    enabled := some (if h.enabled then 1 else 0)
    blendopParams := some (h.blendParams.take inst.blendParamsSize)
    blendopVersion := some inst.blendVersion
    multiPriority := some h.multiPriority
    multiName := some h.multiName }

-- `INSERT INTO main.history (imgid, num) VALUES (?1, ?2)`.
def blankRow (num : Int) : HistoryRow where
  imgid := imgid
  num := some num
  module := none
  operation := none
  opParams := none
  enabled := none
  blendopParams := none
  blendopVersion := none
  multiPriority := none
  multiName := none

-- The statements of `dt_dev_write_history_item` on `main.history`.
def writeItemRow (num : Int) : Database :=
  let isItem (row : HistoryRow) : Bool := row.imgid == imgid && row.num == some num
  let db := if db.history.any isItem then db else db.insertHistory [blankRow imgid num]
  { db with
    history := db.history.map fun row =>
      if isItem row then writeItemColumns inst dev h row else row }

def dtDevWriteHistoryItem (num : Int) : Database :=
  h.forms.foldl (fun db form => dtMasksWriteMasksHistoryItem db imgid num form)
    (writeItemRow inst dev db imgid h num)

def cleanupHistory : Database :=
  (db.deleteHistory imgid).deleteMasks imgid

def writeItems (inst : Installation) (dev : Develop) (imgid : ImgId) :
    Database → Nat → List (HistoryItem ModuleRef) → Database
  | db, _, [] => db
  | db, num, h :: history =>
      writeItems inst dev imgid (dtDevWriteHistoryItem inst dev db imgid h num) (num + 1) history

def devWriteHistory : Database :=
  writeItems inst dev imgid (cleanupHistory db imgid) 0 dev.history

def dtDevWriteHistoryExt : Database :=
  let db := devWriteHistory inst dev db imgid
  let db := db.setHistoryEnd imgid (some dev.historyEnd)
  let db := dtIopprWriteIopOrderList db dev.iopOrderList imgid
  dtHistoryHashWriteFromHistory inst.md5 db imgid { current := true }

end DTLite
