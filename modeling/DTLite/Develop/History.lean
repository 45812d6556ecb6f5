import DTLite.Develop.IopOrder
import DTLite.Reasoning.LastWins
import DTLite.Reasoning.Runs

/-!
# The history stack

Adding an item to `dev->history` and going to a position of it.  A module is live: its params and
its enabled flag are what the user sees, while the pipe replays the items below `history_end`.
-/

namespace DTLite

open Reasoning

-- An item above `history_end` is kept if its module is always on or on by default.
def keptAbove (mods : ModuleRef → IopModule) (h : HistoryItem ModuleRef) : Bool :=
  (mods h.module).hideEnableButton || (mods h.module).defaultEnabled

variable (dev : Develop)

-- The items at and above `history_end` that adding an item keeps.
def keptModules : List (HistoryItem ModuleRef) :=
  (dev.history.drop dev.historyEnd).filter (keptAbove dev.mods)

-- `while(history_end > 0 && !g_list_nth(history, history_end - 1)) history_end--`.
def dropNilItems (history : List (HistoryItem ModuleRef)) : Nat → Nat
  | 0 => 0
  | n + 1 => if history[n]?.isNone then dropNilItems history n else n + 1

/-- The first part of `_dev_add_history_item_ext`: what stands above `history_end` goes, but for
the always-on modules, and `history_end` moves by the number of items kept. -/
def removeObsolete : Develop :=
  let kept := keptModules dev
  let history := dev.history.take dev.historyEnd ++ kept
  { dev with history := history, historyEnd := dropNilItems history dev.historyEnd + kept.length }

-- `g_list_nth(dev->history, dev->history_end - 1)`.
def topItem : Option (HistoryItem ModuleRef) :=
  match dev.historyEnd with
  | 0 => none
  | n + 1 => dev.history[n]?

variable (m : ModuleRef)

-- Whether a change of the module `m` makes an item of its own, over the top item `h`.
def startsNewItem (includeMasks : Bool) (h : HistoryItem ModuleRef) : Bool :=
  let module := dev.mods m
  m != h.module
    || module.instanceNo != (dev.mods h.module).instanceNo
    || module.multiPriority != (dev.mods h.module).multiPriority
    || (dev.focusHash != h.focusHash
      && (module.paramsSize != (dev.mods h.module).paramsSize
        || includeMasks
        || (module.paramsSize == (dev.mods h.module).paramsSize && h.params != module.params)))

def newItem (module : IopModule) (includeMasks : Bool) : HistoryItem ModuleRef where
  module := m
  enabled := module.enabled
  params := module.params
  blendParams := module.blendParams
  opName := module.op
  iopOrder := module.iopOrder
  multiPriority := module.multiPriority
  multiName := module.multiName
  forms := if includeMasks then dev.forms else []
  num := 0
  focusHash := dev.focusHash

-- "new operation, push new item".
def pushItem (enable includeMasks : Bool) : Develop :=
  let module := if enable then { dev.mods m with enabled := true } else dev.mods m
  { dev.setModule m module with
    history := dev.history ++ [newItem dev m module includeMasks]
    historyEnd := dev.historyEnd + 1 }

def changedItem (module : IopModule) (h : HistoryItem ModuleRef) (includeMasks : Bool) :
    HistoryItem ModuleRef :=
  { h with
    params := module.params
    blendParams := if module.supportsBlending then module.blendParams else h.blendParams
    iopOrder := module.iopOrder
    multiPriority := module.multiPriority
    multiName := module.multiName
    enabled := module.enabled
    forms := if includeMasks then dev.forms else h.forms }

-- "same operation, change params".
def changeTopItem (h : HistoryItem ModuleRef) (includeMasks : Bool) : Develop :=
  -- if the user changed stuff and the module is still not enabled, do it
  let module :=
    if !h.enabled && !(dev.mods m).enabled then { dev.mods m with enabled := true }
    else dev.mods m
  { dev.setModule m module with
    history := dev.history.set (dev.historyEnd - 1) (changedItem dev module h includeMasks) }

/-- The event flags of a pipe, `dt_dev_pixelpipe_change_t` as a bit set. -/
structure PipeChanged where
  topChanged : Bool := false
  remove : Bool := false
  synch : Bool := false
deriving DecidableEq, Repr

-- `changed |= flags`.
def PipeChanged.raise (changed flags : PipeChanged) : PipeChanged where
  topChanged := changed.topChanged || flags.topChanged
  remove := changed.remove || flags.remove
  synch := changed.synch || flags.synch

/-- With the flags it raises on each of the three pipes. -/
def devAddHistoryItemExt (enable noImage includeMasks : Bool) : Develop × PipeChanged :=
  let dev := removeObsolete dev
  match topItem dev with
  | none => (pushItem dev m enable includeMasks, { synch := !noImage })
  | some h =>
      if startsNewItem dev m includeMasks h then
        (pushItem dev m enable includeMasks, { synch := !noImage })
      else (changeTopItem dev m h includeMasks, { topChanged := !noImage })

-- "reset gui params for all modules", for one of them.
def resetModule (iopOrderList : List IopOrderEntry) (module : IopModule) : IopModule :=
  { module with
    params := module.defaultParams
    blendParams := module.defaultBlendopParams
    enabled := module.defaultEnabled
    iopOrder :=
      if module.multiPriority = 0 then
        dtIopprGetIopOrder iopOrderList module.op module.multiPriority
      else intMax }

-- "go through history and set gui params", for one item.
def replayItem (h : HistoryItem ModuleRef) (module : IopModule) : IopModule :=
  { module with
    params := h.params
    blendParams := h.blendParams
    iopOrder := h.iopOrder
    enabled := h.enabled
    multiName := h.multiName }

-- The forms of the last item that carries any.
def lastForms (items : List (HistoryItem ModuleRef)) : List MasksForm :=
  items.foldl (fun forms h => if h.forms ≠ [] then h.forms else forms) []

def dtMasksReplaceCurrentForms (forms : List MasksForm) : Develop :=
  { dev with forms := forms }

-- The heap after `dt_dev_pop_history_items_ext` has reset and replayed the modules.
def poppedModules (cnt : Nat) : ModuleRef → IopModule :=
  (dev.history.take cnt).foldl
    (fun mods h => Function.update mods h.module (replayItem h (mods h.module)))
    (dev.iop.foldl
      (fun mods m => Function.update mods m (resetModule dev.iopOrderList (mods m))) dev.mods)

-- Whether an item between the old and the new position carries forms.
def masksChanged (cnt : Nat) : Bool :=
  ((dev.history.take (max cnt dev.historyEnd)).drop (min cnt dev.historyEnd)).any
    fun h => h.forms ≠ []

def dtDevPopHistoryItemsExt (cnt : Nat) : Develop :=
  let popped := { dev with historyEnd := cnt, mods := poppedModules dev cnt }
  let popped := dtIopprCheckDuplicateIopOrder (dtIopprResyncModulesOrder popped)
  if masksChanged dev cnt then
    dtMasksReplaceCurrentForms popped (lastForms (dev.history.take cnt))
  else popped

end DTLite
