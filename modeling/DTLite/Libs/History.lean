import DTLite.Common.Undo
import DTLite.Develop.History

/-!
# The history panel's undo

The panel keeps a snapshot of the history from the moment it is told that a change is coming, and
records it with a snapshot of the changed history.  Undo and redo put copies of these back.
-/

namespace DTLite

open Reasoning

-- an item whose module may have been deleted since
abbrev SnapshotItem := HistoryItem (Option ModuleRef)

/-- `dev->history` as a list that may be copied into a snapshot. -/
def snapshotItem (h : HistoryItem ModuleRef) : SnapshotItem :=
  { module := some h.module
    enabled := h.enabled
    params := h.params
    blendParams := h.blendParams
    opName := h.opName
    iopOrder := h.iopOrder
    multiPriority := h.multiPriority
    multiName := h.multiName
    forms := h.forms
    num := h.num
    focusHash := h.focusHash }

def dtIopGetModuleFromList (mods : ModuleRef → IopModule) (iop : List ModuleRef) (op : String) :
    Option ModuleRef :=
  iop.find? fun m => (mods m).op == op

def duplicateItem (dev : Develop) (old : SnapshotItem) : SnapshotItem :=
  match old.module with
  | some _ => old
  | none =>
      match dtIopGetModuleFromList dev.mods dev.iop old.opName with
      | some base => { old with params := old.params.take (dev.mods base).paramsSize }
      | none => { old with params := [] }

-- The copies are put in front of the result, one after the other
def dtHistoryDuplicate (dev : Develop) (hist : List SnapshotItem) : List SnapshotItem :=
  hist.foldl (fun result h => duplicateItem dev h :: result) []

def dtIopprIopOrderCopyDeep (iopOrderList : List IopOrderEntry) : List IopOrderEntry :=
  iopOrderList.map id

-- `dt_undo_history_t`
structure UndoHistory where
  beforeSnapshot : List SnapshotItem
  beforeEnd : Nat
  beforeIopOrderList : List IopOrderEntry
  afterSnapshot : List SnapshotItem
  afterEnd : Nat
  afterIopOrderList : List IopOrderEntry

-- `dt_lib_history_t`, with the history records of `darktable.undo`
structure HistoryPanel where
  recordUndo : Bool
  recordHistoryLevel : Int
  previousSnapshot : List SnapshotItem
  previousHistoryEnd : Nat
  previousIopOrderList : List IopOrderEntry
  undoList : List UndoHistory

variable (panel : HistoryPanel) (history : List SnapshotItem)

def libHistoryWillChangeCallback (historyEnd : Nat) (iopOrderList : List IopOrderEntry) :
    HistoryPanel :=
  let panel :=
    if panel.recordUndo && panel.recordHistoryLevel == 0 then
      { panel with
        previousSnapshot := history
        previousHistoryEnd := historyEnd
        previousIopOrderList := iopOrderList }
    else panel
  { panel with recordHistoryLevel := panel.recordHistoryLevel + 1 }

def recordedHistory (dev : Develop) : UndoHistory where
  beforeSnapshot := dtHistoryDuplicate dev panel.previousSnapshot
  beforeEnd := panel.previousHistoryEnd
  beforeIopOrderList := dtIopprIopOrderCopyDeep panel.previousIopOrderList
  afterSnapshot := dtHistoryDuplicate dev (dev.history.map snapshotItem)
  afterEnd := dev.historyEnd
  afterIopOrderList := dtIopprIopOrderCopyDeep dev.iopOrderList

def libHistoryChangeCallback (dev : Develop) : HistoryPanel :=
  let panel := { panel with recordHistoryLevel := panel.recordHistoryLevel - 1 }
  if panel.recordUndo && panel.recordHistoryLevel == 0 then
    { panel with undoList := recordedHistory panel dev :: panel.undoList }
  else { panel with recordUndo := true }

/-! ## Putting a snapshot back -/

-- what `_pop_undo` works on: the copies, the heap of the modules and the other records
structure UndoWork where
  history : List SnapshotItem
  iop : List ModuleRef
  mods : ModuleRef → IopModule
  heapEnd : ModuleRef
  others : List UndoHistory

-- "if multi_priority is different in history and dev->iop we keep the history version"
def rebuildStep (s : UndoWork × Bool) (hitem : SnapshotItem) : UndoWork × Bool :=
  match hitem.module with
  | none => s
  | some m =>
      if (s.1.mods m).multiPriority ≠ hitem.multiPriority then
        let module := { s.1.mods m with multiPriority := hitem.multiPriority }
        ({ s.1 with mods := Function.update s.1.mods m module }, true)
      else s

def rebuildMultiPriority (work : UndoWork) : UndoWork × Bool :=
  work.history.foldl rebuildStep (work, false)

def resetModuleInstance (op : String) (m : ModuleRef) (multiPriority : Int)
    (hist : List SnapshotItem) : List SnapshotItem :=
  hist.map fun hit =>
    if hit.module.isNone && hit.opName == op && hit.multiPriority == multiPriority then
      { hit with module := some m }
    else hit

-- a new instance of the base module, for an item that has lost its module
def createModule (work : UndoWork) (base : IopModule) (hitem : SnapshotItem) : UndoWork :=
  let module := { base with
    multiName := hitem.multiName
    multiPriority := hitem.multiPriority
    iopOrder := hitem.iopOrder
    params := base.defaultParams
    blendParams := base.defaultBlendopParams
    enabled := base.defaultEnabled }
  let mods := Function.update work.mods work.heapEnd module
  { work with
    mods := mods
    heapEnd := work.heapEnd + 1
    iop := work.iop.orderedInsert (fun a b => (mods a).iopOrder ≤ (mods b).iopOrder) work.heapEnd }

-- `_create_deleted_modules`, for the `n` items from the position `i` on
def createDeletedModulesLoop : Nat → Nat → Bool → UndoWork → UndoWork × Bool
  | 0, _, _, work => (work, false)
  | n + 1, i, done, work =>
      match work.history[i]? with
      | none => (work, false)
      | some hitem =>
          if hitem.module.isSome then createDeletedModulesLoop n (i + 1) done work
          else
            match dtIopGetModuleFromList work.mods work.iop hitem.opName with
            | none => (work, true)
            | some b =>
                -- `dt_iop_load_module` fails without params
                if (work.mods b).paramsSize = 0 then (work, true)
                else
                  let m := work.heapEnd
                  let reset := resetModuleInstance hitem.opName m hitem.multiPriority
                  let work := createModule work (work.mods b) hitem
                  let work :=
                    if done then work
                    else
                      { work with
                        history := reset work.history
                        others := work.others.map fun r =>
                          { r with afterSnapshot := reset r.afterSnapshot } }
                  let work := { work with
                    history := work.history.set i { hitem with module := some m } }
                  ((createDeletedModulesLoop n (i + 1) true work).1, true)

def createDeletedModules (work : UndoWork) : UndoWork × Bool :=
  createDeletedModulesLoop work.history.length 0 false work

-- As a test
def searchHistoryByModule (m : ModuleRef) : Bool :=
  history.any fun hist => hist.module == some m

-- the position, counted from here, of the module that the loop of `_check_deleted_instances`
-- deletes next
def deletedInstance (mods : ModuleRef → IopModule) (history : List SnapshotItem) :
    List ModuleRef → Option Nat
  | [] => none
  | m :: modules =>
      let here :=
        if (mods m).multiPriority = 0 then
          match modules with
          | [] => none
          | next :: _ =>
              if (mods next).op = (mods m).op ∧ (mods next).multiPriority = 0 then
                match searchHistoryByModule history m, searchHistoryByModule history next with
                | true, false => some 1
                | false, true => some 0
                | _, _ => none
              else none
        else if searchHistoryByModule history m then none
        else some 0
      here.or ((deletedInstance mods history modules).map (· + 1))

def dtDevInvalidateHistoryModule (m : ModuleRef) (list : List SnapshotItem) : List SnapshotItem :=
  list.map fun hitem => if hitem.module = some m then { hitem with module := none } else hitem

-- the loop of `_check_deleted_instances`: each turn but the last deletes a module of `iop`
def checkDeletedLoop : Nat → UndoWork → UndoWork × Bool
  | 0, work => (work, false)
  | n + 1, work =>
      match deletedInstance work.mods work.history work.iop with
      | none => (work, false)
      | some i =>
          let invalidate := (work.iop[i]?.map dtDevInvalidateHistoryModule).getD id
          let work := { work with
            iop := work.iop.eraseIdx i
            others := work.others.map fun r =>
              { r with afterSnapshot := invalidate r.afterSnapshot } }
          ((checkDeletedLoop n work).1, true)

def checkDeletedInstances (work : UndoWork) : UndoWork × Bool :=
  let r := checkDeletedLoop work.iop.length work
  if r.2 then ({ r.1 with iop := sortIopByOrder r.1.mods r.1.iop }, true) else r

-- what `_pop_undo` has set in the develop before it writes and reloads the history
structure Installed where
  history : List SnapshotItem
  historyEnd : Nat
  iopOrderList : List IopOrderEntry
  iop : List ModuleRef
  mods : ModuleRef → IopModule
  others : List UndoHistory
  changed : PipeChanged

-- `others` are the records in the two undo lists, where `hist` is not at that time
def popUndo (dev : Develop) (heapEnd : ModuleRef) (others : List UndoHistory) (hist : UndoHistory)
    (action : UndoAction) : Installed :=
  let (snapshot, histEnd, iopOrderList) :=
    match action with
    | .undo => (hist.beforeSnapshot, hist.beforeEnd, hist.beforeIopOrderList)
    | .redo => (hist.afterSnapshot, hist.afterEnd, hist.afterIopOrderList)
  let work : UndoWork :=
    { history := dtHistoryDuplicate dev snapshot
      iop := dev.iop
      mods := dev.mods
      heapEnd := heapEnd
      others := others }
  let rebuilt := rebuildMultiPriority work
  let work :=
    if rebuilt.2 then { rebuilt.1 with iop := sortIopByOrder rebuilt.1.mods rebuilt.1.iop }
    else rebuilt.1
  let created := createDeletedModules work
  let checked := checkDeletedInstances created.1
  { history := checked.1.history
    historyEnd := histEnd
    iopOrderList := dtIopprIopOrderCopyDeep iopOrderList
    iop := checked.1.iop
    mods := checked.1.mods
    others := checked.1.others
    changed := { remove := rebuilt.2 || created.2 || checked.2 } }

end DTLite
