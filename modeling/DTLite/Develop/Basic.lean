import Mathlib.Logic.Function.Basic

/-! The darkroom's data: modules, history items, drawn forms and the develop that holds them. -/

namespace DTLite

-- A memory block of a module: its params or its blend params.
abbrev Blob := List UInt8

-- A `dt_iop_module_t *`.
abbrev ModuleRef := Nat

-- The iop order of a module that is not in use.
def intMax : Int := 2147483647

-- `dt_masks_form_t`.
structure MasksForm where
  formid : Int
  type : Nat
  name : String
  version : Int
  source : Blob
  points : List Blob
deriving DecidableEq, Repr

-- `dt_iop_order_entry_t`.
structure IopOrderEntry where
  iopOrder : Int
  operation : String
  instanceNo : Int
deriving DecidableEq, Repr

/-- `dt_iop_module_t`. A params block has `paramsSize` bytes, so copying one is an assignment. -/
structure IopModule where
  op : String
  instanceNo : Int
  multiPriority : Int
  multiName : String
  iopOrder : Int
  hideEnableButton : Bool
  defaultEnabled : Bool
  -- `flags() & IOP_FLAGS_SUPPORTS_BLENDING`
  supportsBlending : Bool
  operationTags : Nat
  operationTagsFilter : Nat
  paramsSize : Nat
  defaultParams : Blob
  defaultBlendopParams : Blob
  params : Blob
  blendParams : Blob
  enabled : Bool
deriving DecidableEq, Repr

/-- `dt_dev_history_item_t`. The module pointer, of type `μ`, may be `NULL` in the snapshots for
undo. -/
structure HistoryItem (μ : Type) where
  module : μ
  enabled : Bool
  params : Blob
  blendParams : Blob
  opName : String
  iopOrder : Int
  multiPriority : Int
  multiName : String
  -- `NULL` is the empty list.
  forms : List MasksForm
  num : Int
  focusHash : Int
deriving DecidableEq, Repr

/-- `dt_develop_t`. The modules live on the heap `mods`; `iop` lists the ones of this develop. -/
structure Develop where
  focusHash : Int
  historyEnd : Nat
  history : List (HistoryItem ModuleRef)
  iop : List ModuleRef
  iopOrderList : List IopOrderEntry
  forms : List MasksForm
  guiModule : Option ModuleRef
  previewDownsampling : Rat
  mods : ModuleRef → IopModule

namespace Develop

def setModule (dev : Develop) (m : ModuleRef) (module : IopModule) : Develop :=
  { dev with mods := Function.update dev.mods m module }

def active (dev : Develop) : List (HistoryItem ModuleRef) := dev.history.take dev.historyEnd

@[simp] theorem setModule_mods_self (dev : Develop) (m : ModuleRef) (module : IopModule) :
    (dev.setModule m module).mods m = module :=
  Function.update_self ..

theorem setModule_mods_of_ne (dev : Develop) {m n : ModuleRef} (module : IopModule)
    (hne : n ≠ m) : (dev.setModule m module).mods n = dev.mods n :=
  Function.update_of_ne hne ..

end Develop

def sampleOp (m : ModuleRef) : String :=
  if m = 0 then "demosaic" else if m = 1 then "colorin" else "exposure"

def sampleOrders : List IopOrderEntry :=
  [⟨1, "demosaic", 0⟩, ⟨2, "colorin", 0⟩, ⟨3, "exposure", 0⟩]

def sampleModule (m : ModuleRef) : IopModule where
  op := sampleOp m
  instanceNo := m
  multiPriority := 0
  multiName := ""
  iopOrder := m + 1
  hideEnableButton := false
  defaultEnabled := false
  supportsBlending := true
  operationTags := 0
  operationTagsFilter := 0
  paramsSize := 1
  defaultParams := [0]
  defaultBlendopParams := [0]
  params := [0]
  blendParams := [0]
  enabled := false

-- an item that turns the module `m` on with other params
def sampleItem (m : ModuleRef) : HistoryItem ModuleRef where
  module := m
  enabled := true
  params := [1]
  blendParams := [0]
  opName := sampleOp m
  iopOrder := m + 1
  multiPriority := 0
  multiName := ""
  forms := []
  num := 0
  focusHash := 0

end DTLite
