import DTLite.Develop.WriteHistory
import DTLite.Reasoning.Prefix

/-!
# Reading the history of an image

`dt_dev_read_history_ext` makes an item of each row it can load, and then takes `history_end` from
the library, where it was counted over the rows.
-/

namespace DTLite

open Reasoning

/-- A develop and the heap its modules are allocated on. -/
structure Workspace where
  dev : Develop
  -- no module lives here or above
  heapEnd : ModuleRef

def Workspace.setModule (w : Workspace) (m : ModuleRef) (module : IopModule) : Workspace :=
  { w with dev := w.dev.setModule m module }

/-! ## One row -/

-- A new instance of the module `findOp`, appended to `dev->iop`.
def addInstance (w : Workspace) (module : IopModule) (findOp : ModuleRef) (opname : String)
    (multiPriority iopOrder : Int) (multiName : String) : Workspace where
  dev :=
    { w.dev.setModule w.heapEnd
        { module with
          op := opname
          multiPriority := multiPriority
          iopOrder := iopOrder
          multiName := multiName
          instanceNo := (w.dev.mods findOp).instanceNo } with
      iop := w.dev.iop ++ [w.heapEnd] }
  heapEnd := w.heapEnd + 1

def isInstance (dev : Develop) (opname : String) (multiPriority : Int) (m : ModuleRef) : Bool :=
  (dev.mods m).op == opname && (dev.mods m).multiPriority == multiPriority

-- A module that a new instance can be made of.
def findOp (dev : Develop) (opname : String) (multiPriority : Int) : Option ModuleRef :=
  if 0 < multiPriority then (dev.iop.filter fun m => (dev.mods m).op == opname).getLast? else none

variable (inst : Installation)

def moduleOfRow (w : Workspace) (opname : String) (multiPriority iopOrder : Int)
    (multiName : String) : Workspace × Option ModuleRef :=
  match w.dev.iop.find? (isInstance w.dev opname multiPriority) with
  | some m => (w.setModule m { w.dev.mods m with multiName := multiName }, some m)
  | none =>
      -- we just say that we find the name, so we just have to add new instance of this module
      match findOp w.dev opname multiPriority, (inst.iopSo opname).loadModule with
      | some findOp, some module =>
          (addInstance w module findOp opname multiPriority iopOrder multiName, some w.heapEnd)
      | _, _ => (w, none)

/-- The params of a row: its own, or what `legacy_params` makes of them with the blend params it
leaves in the module. -/
inductive RowParams where
  | current (params : Blob)
  | converted (params moduleBlendParams : Blob)
deriving DecidableEq, Repr

variable (opname : String)

def isCurrent (row : HistoryRow) : Bool :=
  (inst.iopSo opname).version == columnInt row.module
    && (inst.iopSo opname).paramsSize == columnBytes row.opParams

def paramsOfRow (row : HistoryRow) : Option RowParams :=
  let so := inst.iopSo opname
  if isCurrent inst opname row then some (.current (row.opParams.getD []))
  else
    match so.legacyParams with
    | none => none
    | some legacy =>
        (legacy (columnBlob row.opParams) (columnInt row.module).natAbs so.version.natAbs).map
          fun r => .converted r.1 r.2

-- The blend params, the module's default ones if those of the row are of another version.
def blendOfRow (module : IopModule) (row : HistoryRow) : Blob :=
  match columnBlob row.blendopParams with
  | some blob =>
      if columnInt row.blendopVersion = inst.blendVersion ∧ blob.length = inst.blendParamsSize then
        blob
      else module.defaultBlendopParams
  | none => module.defaultBlendopParams

def alwaysOn (module : IopModule) : Bool := module.defaultEnabled && module.hideEnableButton

-- "quick and dirty hack to handle spot removal legacy_params".
def isOldSpots (row : HistoryRow) : Bool :=
  opname == "spots" && columnInt row.module == 1

-- "Fix for flip iop": a disabled flip of version 1.
def isOldFlip (row : HistoryRow) : Bool :=
  opname == "flip" && columnInt row.enabled == 0 && (columnInt row.module).natAbs == 1

def itemOfRow (dev : Develop) (m : ModuleRef) (opname : String) (iopOrder : Int) (row : HistoryRow)
    (params : RowParams) : HistoryItem ModuleRef :=
  let module := dev.mods m
  let enabled := columnInt row.enabled != 0
  { module := m
    enabled := alwaysOn module ||
      match params with
      | .current _ => enabled
      | .converted .. => enabled || isOldFlip opname row
    params :=
      match params with
      | .current params => params
      | .converted params _ => if isOldFlip opname row then module.defaultParams else params
    blendParams :=
      match params with
      | .current _ => blendOfRow inst module row
      | .converted _ blend => if isOldSpots opname row then blend else blendOfRow inst module row
    opName := opname
    iopOrder := iopOrder
    multiPriority := columnInt row.multiPriority
    multiName := row.multiName.getD ""
    forms := []
    num := columnInt row.num
    focusHash := 0 }

-- The blend params that `legacy_params` leaves in the module, reset to the default for old spots.
def convertModule (row : HistoryRow) (params : RowParams)
    (module : IopModule) : IopModule :=
  match params with
  | .current _ => module
  | .converted _ blend =>
      { module with
        blendParams := if isOldSpots opname row then module.defaultBlendopParams else blend }

def appendItem (w : Workspace) (m : ModuleRef) (opname : String) (iopOrder : Int) (row : HistoryRow)
    (params : RowParams) : Workspace :=
  let item := itemOfRow inst w.dev m opname iopOrder row params
  let w := w.setModule m (convertModule opname row params (w.dev.mods m))
  { w with
    dev := { w.dev with history := w.dev.history ++ [item], historyEnd := w.dev.historyEnd + 1 } }

def readFoundRow (historyEndCurrent : Int) (w : Workspace) (m : ModuleRef) (opname : String)
    (iopOrder : Int) (row : HistoryRow) : Workspace :=
  if (inst.iopSo opname).noHistoryStack then w
  else
    -- update module iop_order only on active history entries
    let w :=
      if w.dev.historyEnd < historyEndCurrent then
        w.setModule m { w.dev.mods m with iopOrder := iopOrder }
      else w
    match paramsOfRow inst opname row with
    | none => w
    | some params => appendItem inst w m opname iopOrder row params

/-- The body of the loop of `dt_dev_read_history_ext`. -/
def readHistoryRow (historyEndCurrent : Int) (w : Workspace) (row : HistoryRow) : Workspace :=
  match row.operation with
  | none => w
  | some opname =>
      let multiPriority := columnInt row.multiPriority
      let iopOrder := dtIopprGetIopOrder w.dev.iopOrderList opname multiPriority
      let found := moduleOfRow inst w opname multiPriority iopOrder (row.multiName.getD "")
      match found.2 with
      | none => found.1
      | some m => readFoundRow inst historyEndCurrent found.1 m opname iopOrder row

-- What a module goes by: its operation and instance.
def moduleKey (module : IopModule) : String × Int := (module.op, module.multiPriority)

-- Whether the module of a row is among the modules `iop`, or can be added to them.
def hasModule (keys : List (String × Int)) (key : String × Int) : Bool :=
  keys.contains key
    || (decide (0 < key.2) && keys.any (·.1 == key.1) && (inst.iopSo key.1).loadModule.isSome)

/-- A row that gives an item: its operation is installed and may stand in the history, and its
params are of the current version or can be converted. -/
def loadable (dev : Develop) (row : HistoryRow) : Bool :=
  row.operation.any fun opname =>
    hasModule inst (dev.iop.map fun m => moduleKey (dev.mods m))
        (opname, columnInt row.multiPriority)
      && !(inst.iopSo opname).noHistoryStack
      && (paramsOfRow inst opname row).isSome

-- A row of `memory.history`, where an operation has one row: a new one replaces it.
def insertMemoryHistory (rows : List HistoryRow) (row : HistoryRow) : List HistoryRow :=
  (rows.filter fun r => row.operation.isNone || r.operation != row.operation) ++ [row]

def devInsertModule (imgid : ImgId) (rows : List HistoryRow) (module : IopModule) :
    List HistoryRow :=
  insertMemoryHistory rows
    { imgid := imgid
      num := some 0
      module := some (inst.iopSo module.op).version
      operation := some module.op
      opParams := some module.defaultParams
      enabled := some 1
      blendopParams := none
      blendopVersion := some 0
      multiPriority := some 0
      multiName := some "" }

variable (db : Database)

def dtHistoryCheckModuleExists (imgid : ImgId) (operation : String) : Bool :=
  (db.historyOf imgid).any fun row => row.operation == some operation

-- The modules that `_dev_add_default_modules` inserts in one of its two loops.
def defaultModules (dev : Develop) (imgid : ImgId) (hideEnableButton : Bool) :
    List IopModule :=
  (dev.iop.map dev.mods).filter fun module =>
    !dtHistoryCheckModuleExists db imgid module.op
      && module.defaultEnabled
      && module.hideEnableButton == hideEnableButton
      && !(inst.iopSo module.op).noHistoryStack

-- Over an empty `memory.history`.
def devAddDefaultModules (dev : Develop) (imgid : ImgId) : List HistoryRow :=
  (defaultModules inst db dev imgid true ++ defaultModules inst db dev imgid false).foldl
    (devInsertModule inst imgid) []

/-- What the queries of `_dev_auto_apply_presets` select in `data.presets`. -/
structure AutoPresets where
  rows : List HistoryRow
  ioporder : Option (List IopOrderEntry)

variable (presets : AutoPresets) (db : Database) (w : Workspace) (imgid : ImgId)

/-- The rows of `memory.history` go in front of the image's own. -/
def devMergeHistory (memory : List HistoryRow) : Database :=
  let cnt := memory.length
  let db := db.shiftHistory imgid cnt
  let db := db.updateImage imgid fun image =>
    { image with historyEnd := image.historyEnd.map (· + (cnt : Int)) }
  db.insertHistory (memory.mapIdx fun i row => { row with num := some i })

/-- Nothing if `no_image` is set, otherwise the default modules and, on the first run, the `presets`
go into the table. -/
def prepareHistory (noImage : Bool) : Database × Workspace :=
  if noImage then (db, w)
  else
    let memory := devAddDefaultModules inst db w.dev imgid
    if ((db.images imgid).map ImageRow.autoPresetsApplied).getD true then
      (devMergeHistory db imgid memory, w)
    else
      let memory := presets.rows.foldl insertMemoryHistory memory
      let (db, w) :=
        match presets.ioporder with
        | none => (db, w)
        | some iopList =>
            let db := dtIopprWriteIopOrderList db iopList imgid
            (db, { w with dev := dtIopprSetDefaultIopOrder db w.dev imgid })
      let db := db.updateImage imgid fun image => { image with autoPresetsApplied := true }
      (devMergeHistory db imgid memory, w)

def historyTable (noImage : Bool) : Database × Workspace :=
  prepareHistory inst presets db { w with dev := dtIopprSetDefaultIopOrder db w.dev imgid } imgid
    noImage

-- The loop over the rows, with `dev->history_end` counting the items.
def readHistoryRows : Workspace :=
  (db.historyByNum imgid).foldl (readHistoryRow inst (columnInt (db.historyEnd imgid)))
    { w with dev := { w.dev with historyEnd := 0 } }

-- `history_end` as the image has it, `count` if it has none.
def historyEndOr (count : Nat) : Nat :=
  ((db.historyEnd imgid).map Int.toNat).getD count

def readDevelop : Workspace :=
  let w := readHistoryRows inst db w imgid
  let dev := dtIopprResyncModulesOrder w.dev
  let dev := { dev with historyEnd := historyEndOr db imgid dev.historyEnd }
  { w with dev := dtMasksReadMasksHistory db dev imgid }

-- The flags of the hash that is written at the end.
def readHashFlags (firstRun legacyParams : Bool) (autoApplyModules : Nat) : HashFlags :=
  let status := dtHistoryHashGetStatus db imgid
  if firstRun then
    if status.current then { current := true }
    else if autoApplyModules ≠ 0 then { current := true, auto := true }
    else { current := true, basic := true }
  else if legacyParams && (status.basic || status.auto) then
    { current := true, basic := status.basic, auto := status.auto }
  else { current := true }

-- How many rows the presets add to the default modules, on the first run.
def autoApplyModules (dev : Develop) (imgid : ImgId) : Nat :=
  let defaults := devAddDefaultModules inst db dev imgid
  (presets.rows.foldl insertMemoryHistory defaults).length - defaults.length

def dtDevReadHistoryExt (noImage : Bool) : Database × Workspace :=
  if imgid = 0 ∨ w.dev.iop = [] then (db, w)
  else
    let firstRun := !noImage && !((db.images imgid).map ImageRow.autoPresetsApplied).getD true
    let autoApplied := autoApplyModules inst presets db (dtIopprSetDefaultIopOrder db w.dev imgid)
      imgid
    let table := historyTable inst presets db w imgid noImage
    let legacyParams := (table.1.historyOf imgid).any fun row =>
      loadable inst table.2.dev row && row.operation.any fun opname => !isCurrent inst opname row
    let w := readDevelop inst table.1 table.2 imgid
    let db := devWriteHistory inst w.dev table.1 imgid
    let db := dtIopprWriteIopOrderList db w.dev.iopOrderList imgid
    let flags := readHashFlags db imgid firstRun legacyParams autoApplied
    (dtHistoryHashWriteFromHistory inst.md5 db imgid flags, w)

-- Every module has params of one byte, in version 1.
def sampleInstallation : Installation where
  iopSo op :=
    { version := 1
      paramsSize := 1
      noHistoryStack := op == "finalscale" || op == "overexposed"
      oneInstance := op == "demosaic" || op == "colorin"
      legacyParams := none
      loadModule := some { sampleModule 2 with op := op } }
  blendVersion := 1
  blendParamsSize := 1
  md5 := id

def sampleWorkspace : Workspace where
  dev :=
    { focusHash := 0
      historyEnd := 0
      history := []
      iop := [0, 1, 2]
      iopOrderList := sampleOrders
      forms := []
      guiModule := none
      previewDownsampling := 1
      mods := sampleModule }
  heapEnd := 3

end DTLite
